import PocketShell.Proofs.Fs.Entries

/-! What a write leaves to be read. A write that is done ends in a file that the path leads to,
which holds what the write was to give it, and everything else is as it was but for the directory
that a new file is put into. Whether the first write to a file is done is decided by the mode that
the mask leaves the new file. -/
namespace PocketShell

open Volume

variable {actor : Actor} {before after machine : Machine} {directory inode file written : Inode}
  {path name content text : String} {request : Request} {rule : Inode → String}

namespace Volume

variable {first second : Volume} {target child : Inode} {now : Binary64} {id : String}

/-- Between the volumes at most one inode has come and none has gone, only that one or the one with
its id has another content, and no inode has another name, place, type, mode or owner. -/
structure Spares (first second : Volume) (id : String) : Prop where
  root : second.rootId = first.rootId
  umask : second.umask = first.umask
  kept : ∀ other old, first.inode? other = some old → ∃ new, second.inode? other = some new ∧
    new.name = old.name ∧ new.parent = old.parent ∧ new.type = old.type ∧ new.mode = old.mode ∧
    new.owner = old.owner ∧ new.group = old.group ∧
    (other ≠ id → new.content = old.content ∧ new.target = old.target)
  new : ∀ other, first.inode? other = none → second.inode? other ≠ none → other = id

theorem Spares.setContent (held : first.inode? file.id = some file) :
    first.Spares (first.put (file.setContent now text)) file.id where
  root := rfl
  umask := rfl
  kept := by
    intro other old found
    rw [inode?_put]
    split
    · rename_i here
      rw [here] at found
      change first.inode? file.id = some old at found
      rw [held] at found
      cases found
      exact ⟨_, rfl, rfl, rfl, Record.Alike.setContent.type, rfl, rfl, rfl,
        fun differs => absurd here differs⟩
    · exact ⟨old, found, rfl, rfl, rfl, rfl, rfl, rfl, fun _ => ⟨rfl, rfl⟩⟩
  new := by
    intro other none there
    have here : first.inode? (file.setContent now text).id = some file := held
    exact absurd ((inode?_put_eq_none_iff here).mpr none) there

theorem Spares.graft (fits : first.Fits directory child) :
    first.Spares (first.graft now directory child) child.id where
  root := rfl
  umask := rfl
  kept := by
    intro other old found
    rw [inode?_graft]
    split
    · rename_i new
      rw [new, fits.fresh] at found
      cases found
    split
    · rename_i here
      rw [here, fits.held] at found
      cases found
      have alike : directory.Alike (directory.withChildren now (directory.children ++ [child.id])) :=
        .withChildren fits.directory
      refine ⟨_, rfl, rfl, rfl, alike.type, rfl, rfl, rfl, fun _ => ⟨?_, alike.target⟩⟩
      cases payload : directory.payload with
      | directory entries => simp [Record.content, payload, Record.withChildren]
      | _ =>
        have shape := fits.directory
        simp [Record.isDirectory, Record.type, payload, Payload.type] at shape
    · exact ⟨old, found, rfl, rfl, rfl, rfl, rfl, rfl, fun _ => ⟨rfl, rfl⟩⟩
  new := by
    intro other none there
    by_contra differs
    rw [inode?_graft, if_neg differs] at there
    split at there
    · rename_i here
      rw [here, fits.held] at none
      cases none
    · exact there none

end Volume

namespace Fs

/-- How a write that is done has gone: into the file that the path leads to, or into a new one. -/
inductive Rewritten (actor : Actor) (before : Machine) (path : String) (rule : Inode → String) :
    Inode → Machine → Prop
  | found {file : Inode} {now : Binary64} {after : Machine}
      (leads : before.volume.lookup actor true path = .ok file) (shape : file.isFile = true)
      (writes : file.permits actor.user .write = true)
      (volume : after.volume = before.volume.put (file.setContent now (rule file))) :
      Rewritten actor before path rule (file.setContent now (rule file)) after
  | made {directory : Inode} {name : String} {now : Binary64} {after : Machine}
      (nowhere : before.volume.lookup actor true path = .error (.refused .notFound))
      (enters : Enters actor before path directory
        ((newFile actor before directory name).setContent now
          (rule (newFile actor before directory name))) after) :
      Rewritten actor before path rule ((newFile actor before directory name).setContent now
        (rule (newFile actor before directory name))) after

theorem rewrite_rewritten (linked : before.volume.Linked)
    (ran : rewrite path rule actor before = (.ok written, after)) :
    Rewritten actor before path rule written after := by
  have created : Created actor before path _ _ := findOrCreate_created linked path
  unfold rewrite openForWrite at ran
  simp only [bind_assoc, pure_bind] at ran
  obtain ⟨inode, between, opened, checks⟩ := bind_ok ran
  rw [opened] at created
  obtain ⟨_, middle, checked, puts⟩ := bind_ok checks
  obtain ⟨rfl, shape, writes⟩ := (demandFile_reads path inode).of_ok checked
  simp only [run_bind, get_run, put_run, pure_run] at puts
  cases puts
  cases created with
  | found leads => exact .found leads shape writes rfl
  | @touched directory link name nowhere bare parent named =>
    have symlink := isSymlink_of_notFound parent named nowhere
    change link.isFile = true at shape
    simp only [Record.isFile, Record.isSymlink, decide_eq_true_eq] at shape symlink
    rw [symlink] at shape
    cases shape
  | @made directory name after nowhere bare parent free may volume supply =>
    have newcomer : Newcomer actor.user before directory
        ((newFile actor before directory name).setContent middle.now
          (rule (newFile actor before directory name))) :=
      ⟨rfl, rfl, rfl, rfl, by intro text same; cases same; rfl⟩
    have grown : middle.volume.put ((newFile actor before directory name).setContent middle.now
          (rule (newFile actor before directory name))) =
        before.volume.graft before.now directory ((newFile actor before directory name).setContent
          middle.now (rule (newFile actor before directory name))) :=
      (congrArg (Volume.put _) volume).trans (put_graft rfl)
    exact .made nowhere ⟨parent, free, may, newcomer, grown⟩

theorem payload_of_isFile (shape : inode.isFile = true) : inode.payload = .file inode.content := by
  cases payload : inode.payload with
  | file text => simp [Record.content, payload]
  | directory entries => simp [Record.isFile, Record.type, payload, Payload.type] at shape
  | symlink target => simp [Record.isFile, Record.type, payload, Payload.type] at shape

theorem setContent_payload {now : Binary64} (shape : inode.isFile = true) :
    (inode.setContent now text).payload = .file text := by
  simp only [Record.setContent, payload_of_isFile shape]

/-- Root reads what the file holds that a path leads to. -/
theorem serve_readText (leads : machine.volume.lookup actor.asRoot true path = .ok inode)
    (payload : inode.payload = .file text) :
    (machine.serve actor.asRoot (.readText path)).1 = .ok (.text text) := by
  have reads : inode.permits actor.asRoot.user .read = true := permits_rootUser _ _
  have ran : readText path actor.asRoot machine = (.ok text, machine) := by
    unfold readText demand
    simp only [run_bind, lookup_run, leads, Machine.noting, payload, read_run, reads, ↓reduceIte]
    rfl
  rw [Machine.serve_eq (rfl : (Request.readText path).run = .text <$> readText path), ran]

theorem serve_readText_refused {failure : FsFailure}
    (nowhere : machine.volume.lookup actor true path = .error failure) :
    (machine.serve actor (.readText path)).1 = .error failure := by
  rw [Machine.serve_eq (rfl : (Request.readText path).run = .text <$> readText path)]
  unfold readText
  rw [run_bind, lookup_run, nowhere]

/-- What a path held for root before a write to an inode: the content of that inode, or nothing
where it was made by the write. -/
def Held (actor : Actor) (before : Machine) (path id : String) (text : String) : Prop :=
  ((before.serve actor.asRoot (.readText path)).1 = .ok (.text text) ∧
      before.volume.inode? id ≠ none) ∨
    ((before.serve actor.asRoot (.readText path)).1 = .error (.refused .notFound) ∧
      before.volume.inode? id = none ∧ text = "")

/-- What a path holds for root after a write: the content of the file, which is all that has
changed but for a new entry. -/
structure Holds (actor : Actor) (before : Machine) (path text : String) (file : Inode)
    (after : Machine) : Prop where
  read : (after.serve actor.asRoot (.readText path)).1 = .ok (.text text)
  held : after.volume.inode? file.id = some file
  payload : file.payload = .file text
  size : file.size = byteSize text
  spares : before.volume.Spares after.volume file.id

namespace Rewritten

variable (rewritten : Rewritten actor before path rule written after)
  (linked : before.volume.Linked) (fresh : before.IdsFresh)

include rewritten linked fresh

/-- Root is led to the file that has been written. -/
private theorem lookup : after.volume.lookup actor.asRoot true path = .ok written := by
  cases rewritten with
  | @found file now after leads shape writes volume =>
    obtain ⟨trail, route⟩ := linked.route_of_lookup leads
    have held : before.volume.inode? (file.setContent now (rule file)).id = some file := route.held
    have amends : Amends actor.user file (file.setContent now (rule file)) :=
      .setContent shape writes
    obtain ⟨again, leadsAgain, present⟩ := (Keeps.put held .setContent).lookup linked
      ((Edit.amend route.held amends).linked linked) (not_loses_put held) (lookup_asRoot leads)
    have wrote : (before.volume.put (file.setContent now (rule file))).inode? file.id =
        some (file.setContent now (rule file)) := inode?_put_self
    rw [wrote] at present
    rw [volume, leadsAgain, Option.some.inj present]
  | made nowhere enters => exact lookup_follow rfl (enters.lookup linked fresh)

/-- What has been written is what the rule makes of a file that the path held before, and is all
that the path holds afterwards. -/
theorem holds : ∃ file, Held actor before path written.id file.content ∧
    Holds actor before path (rule file) written after := by
  have leadsAfter := rewritten.lookup linked fresh
  cases rewritten with
  | @found file now after leads shape writes volume =>
    obtain ⟨trail, route⟩ := linked.route_of_lookup leads
    refine ⟨file, .inl ⟨serve_readText (lookup_asRoot leads) (payload_of_isFile shape), ?_⟩, ?_⟩
    · change before.volume.inode? file.id ≠ none
      simp [route.held]
    · refine ⟨serve_readText leadsAfter (setContent_payload shape), ?_, setContent_payload shape,
        rfl, ?_⟩
      · rw [volume]
        exact inode?_put_self
      · rw [volume]
        exact .setContent route.held
  | @made directory name now after nowhere enters =>
    have fits := enters.fits linked fresh
    have nowhereRoot : before.volume.lookup actor.asRoot true path = .error (.refused .notFound) := by
      have concedes : Concedes (before.volume.lookup actor true path) _ := lookup_concedes
      rw [nowhere] at concedes
      generalize before.volume.lookup actor.asRoot true path = result at concedes
      cases concedes with
      | same => rfl
    refine ⟨newFile actor before directory name,
      .inr ⟨serve_readText_refused nowhereRoot, fits.fresh, rfl⟩,
      serve_readText leadsAfter rfl, ?_, rfl, rfl, ?_⟩
    · rw [enters.volume]
      exact Fits.inode?_child
    · rw [enters.volume]
      exact .graft fits

end Rewritten

end Fs

/-- What is written to a path is read from it, and what is added to a file stands right behind
what was there; nothing else changes but that a new file has come. -/
theorem written_is_read (reachable : Reachable Snapshot.Keyed machine) (actor : Actor)
    (path text : String) :
    (∀ file, (machine.serve actor (.writeText path text)).1 = .ok (.inode file) →
      Fs.Holds actor machine path text file (machine.serve actor (.writeText path text)).2) ∧
    ∀ file, (machine.serve actor (.appendText path text)).1 = .ok (.inode file) →
      ∃ old, Fs.Held actor machine path file.id old ∧
        Fs.Holds actor machine path (old ++ text) file
          (machine.serve actor (.appendText path text)).2 := by
  have linked := (reachable.sound Snapshot.keyed_closed).linked
  have fresh := (reachable.sound Snapshot.keyed_closed).fresh
  constructor
  · intro file done
    obtain ⟨written, ran, ⟨⟩⟩ := Machine.serve_ok
      (rfl : (Request.writeText path text).run = .inode <$> Fs.writeText path text) done
    obtain ⟨_, -, holds⟩ := (Fs.rewrite_rewritten linked ran).holds linked fresh
    exact holds
  · intro file done
    obtain ⟨written, ran, ⟨⟩⟩ := Machine.serve_ok
      (rfl : (Request.appendText path text).run = .inode <$> Fs.appendText path text) done
    obtain ⟨old, held, holds⟩ := (Fs.rewrite_rewritten linked ran).holds linked fresh
    exact ⟨old.content, held, holds⟩

/-- A machine on which a link leads to another, and that to a file. -/
def chainedMachine : Machine :=
  let near := (sharedMachine.serve ⟨"guest", "/tmp"⟩ (.ln "b" "a")).2
  let far := (near.serve ⟨"guest", "/tmp"⟩ (.ln "/tmp/f" "b")).2
  (far.serve ⟨"guest", "/tmp"⟩ (.writeText "f" "one")).2

set_option maxRecDepth 4000 in
/-- A text that is added through both links, by a path that goes up first, is read behind the text
that was there. -/
theorem added_through_links : Reachable Snapshot.Keyed chainedMachine ∧
    ∃ file, (chainedMachine.serve ⟨"guest", "/tmp"⟩ (.appendText "../tmp/a" "two")).1 =
        .ok (.inode file) ∧
      ((chainedMachine.serve ⟨"guest", "/tmp"⟩ (.appendText "../tmp/a" "two")).2.serve
        ⟨"root", "/tmp"⟩ (.readText "../tmp/a")).1 = .ok (.text "onetwo") := by
  have reachable : Reachable Snapshot.Keyed chainedMachine :=
    (((sharedMachine_reachable _).serve _ _).serve _ _).serve _ _
  refine ⟨reachable, _, rfl, ?_⟩
  obtain ⟨old, held, holds⟩ :=
    (written_is_read reachable ⟨"guest", "/tmp"⟩ "../tmp/a" "two").2 _ rfl
  have before : (chainedMachine.serve ⟨"root", "/tmp"⟩ (.readText "../tmp/a")).1 =
      .ok (.text "one") := rfl
  rcases held with ⟨read, -⟩ | ⟨refused, -⟩
  · cases before.symm.trans read
    exact holds.read
  · cases before.symm.trans refused

/-! ## The first write to a file -/

namespace Fs

/-- The owner may write to a new file unless the mask takes that away. -/
private theorem newFile_grants (mask : Mode) :
    (Mode.newFile.less mask).grants .owner .write = !mask.grants .owner .write := by
  simp [Mode.less, Mode.grants, Mode.newFile, UserClass.shift, Access.place]

/-- The mask leaves a new file of the user's open to the user's own write. -/
def Unmasked (user : String) (mask : Mode) : Prop :=
  user = rootUser ∨ mask.grants .owner .write = false

section FirstWrite

variable (bare : Path.endsInSlash path = false)
  (nowhere : before.volume.lookup actor true path = .error (.refused .notFound))
  (parent : before.volume.lookupParent actor path = .ok (directory, name))
  (free : before.volume.childNamed? directory name = none)
  (writes : directory.permits actor.user .write = true)

include bare nowhere parent free writes

private theorem rewrite_unmasked (unmasked : Unmasked actor.user before.volume.umask)
    (rule : Inode → String) : ∃ written after, rewrite path rule actor before = (.ok written, after) := by
  obtain ⟨after, ran, -, -⟩ := findOrCreate_made nowhere bare parent free writes
  have allowed : (newFile actor before directory name).permits actor.user .write = true := by
    rw [newFile_permits, newFile_grants]
    rcases unmasked with root | open_
    · simp [root]
    · simp [open_]
  have checked : demandFile path (newFile actor before directory name) actor after = _ :=
    demandFile_newFile bare
  rw [if_pos allowed] at checked
  unfold rewrite openForWrite
  simp only [run_bind, ran, checked, pure_run, get_run, put_run]
  exact ⟨_, _, rfl⟩

private theorem rewrite_masked (fresh : before.IdsFresh)
    (masked : ¬ Unmasked actor.user before.volume.umask) (rule : Inode → String) :
    ∃ failure after, rewrite path rule actor before = (.error failure, after) := by
  simp only [Unmasked, not_or, Bool.not_eq_false] at masked
  have stranded : Stranded before actor path :=
    .masked nowhere bare parent free writes masked.1 (by rw [newFile_grants, masked.2]; rfl)
  obtain ⟨failure, after, ran, -⟩ := rewrite_stranded fresh stranded rule
  exact ⟨failure, after, ran⟩

end FirstWrite

/-- A write to a file that is there asks for no more than the permission. -/
private theorem rewrite_there (bare : Path.endsInSlash path = false)
    (leads : before.volume.lookup actor true path = .ok file) (shape : file.isFile = true)
    (writes : file.permits actor.user .write = true) (rule : Inode → String) :
    ∃ written after, rewrite path rule actor before = (.ok written, after) := by
  have kind : file.type = .file := by simpa [Record.isFile] using shape
  have directory : file.isDirectory = false := by simp [Record.isDirectory, kind]
  have link : file.isSymlink = false := by simp [Record.isSymlink, kind]
  simp only [rewrite, openForWrite, findOrCreate, demandFile, demand, run_bind, volume_run, read_run,
    leads, directory, bare, link, writes, pure_run, get_run, put_run, Bool.false_eq_true,
    ↓reduceIte]
  exact ⟨_, _, rfl⟩

end Fs

/-- The request writes the text to the path, in the place of what is there or behind it. -/
def Request.Writes (path text : String) : Request → Prop
  | .writeText named content | .appendText named content => named = path ∧ content = text
  | _ => False

namespace Request.Writes

/-- Both ways to write give a file without content the same one. -/
private theorem asked (writes : request.Writes path text) : ∃ rule : Inode → String,
    request.run = .inode <$> Fs.rewrite path rule ∧
      ∀ file : Inode, file.content = "" → rule file = text := by
  cases request with
  | writeText named content =>
    obtain ⟨rfl, rfl⟩ := writes
    exact ⟨_, rfl, fun _ _ => rfl⟩
  | appendText named content =>
    obtain ⟨rfl, rfl⟩ := writes
    exact ⟨_, rfl, fun file empty => by rw [empty, String.empty_append]⟩
  | _ => exact writes.elim

end Request.Writes

/-- A write that needs a new file is done exactly if the mask leaves the user's new files open to
the user's write, and the file then holds what was written; a write to a file that is there is done
if the file can be written to. -/
theorem write_done_iff (reachable : Reachable Snapshot.Keyed machine) (actor : Actor)
    (bare : Path.endsInSlash path = false) (writes : request.Writes path text) :
    (∀ parentPath name directory, Path.splitParent path = (parentPath, name) →
      name ≠ "" → name ≠ "." → name ≠ ".." →
      machine.volume.lookup actor true parentPath = .ok directory →
      directory.isDirectory = true → directory.permits actor.user .write = true →
      directory.permits actor.user .execute = true →
      machine.volume.childNamed? directory name = none →
      ((∃ file, (machine.serve actor request).1 = .ok (.inode file)) ↔
        Fs.Unmasked actor.user machine.volume.umask) ∧
      ∀ file, (machine.serve actor request).1 = .ok (.inode file) →
        machine.volume.inode? file.id = none ∧
          Fs.Holds actor machine path text file (machine.serve actor request).2) ∧
    ∀ file, machine.volume.lookup actor true path = .ok file → file.isFile = true →
      file.permits actor.user .write = true →
      ∃ written, (machine.serve actor request).1 = .ok (.inode written) := by
  have linked := (reachable.sound Snapshot.keyed_closed).linked
  have fresh := (reachable.sound Snapshot.keyed_closed).fresh
  obtain ⟨rule, asked, rules⟩ := writes.asked
  have done : (∃ written after, Fs.rewrite path rule actor machine = (.ok written, after)) →
      ∃ written, (machine.serve actor request).1 = .ok (.inode written) := by
    rintro ⟨written, after, ran⟩
    exact ⟨written, by rw [Machine.serve_eq asked, ran]⟩
  refine ⟨?_, fun file leads shape may => done (Fs.rewrite_there bare leads shape may rule)⟩
  intro parentPath name directory cut some dot up leads shape may search free
  have parent : machine.volume.lookupParent actor path = .ok (directory, name) :=
    lookupParent_ok_iff.mpr ⟨parentPath, cut, some, dot, up, leads, shape⟩
  have nowhere : machine.volume.lookup actor true path = .error (.refused .notFound) :=
    lookup_free parent search free
  refine ⟨⟨?_, ?_⟩, ?_⟩
  · rintro ⟨file, served⟩
    by_contra masked
    obtain ⟨failure, after, ran⟩ :=
      Fs.rewrite_masked bare nowhere parent free may fresh masked rule
    rw [Machine.serve_eq asked, ran] at served
    cases served
  · exact fun unmasked => done (Fs.rewrite_unmasked bare nowhere parent free may unmasked rule)
  · intro file served
    obtain ⟨written, ran, ⟨⟩⟩ := Machine.serve_ok asked served
    obtain ⟨old, held, holds⟩ := (Fs.rewrite_rewritten linked ran).holds linked fresh
    have nowhereRoot : machine.volume.lookup actor.asRoot true path = .error (.refused .notFound) :=
      lookup_free (lookupParent_asRoot parent) (permits_rootUser _ _) free
    -- Nothing was there to be read, so the rule has been applied to an empty file.
    rcases held with ⟨read, -⟩ | ⟨-, new, empty⟩
    · rw [Fs.serve_readText_refused nowhereRoot] at read
      cases read
    · rw [rules old empty] at holds
      exact ⟨new, holds⟩

/-- A machine on which a user keeps others from reading and writing the files that are made. -/
def privateMachine : Machine := (sharedMachine.setUmask "077").2

/-- There the user can write to a new file. -/
theorem written_under_mask : ∃ directory,
    Reachable Snapshot.Keyed privateMachine ∧ Path.endsInSlash "x" = false ∧
      (Request.writeText "x" "hi").Writes "x" "hi" ∧
      privateMachine.volume.lookup ⟨"guest", "/tmp"⟩ true "." = .ok directory ∧
      ∃ file, (privateMachine.serve ⟨"guest", "/tmp"⟩ (.writeText "x" "hi")).1 =
          .ok (.inode file) ∧
        privateMachine.volume.inode? file.id = none ∧
        Fs.Holds ⟨"guest", "/tmp"⟩ privateMachine "x" "hi" file
          (privateMachine.serve ⟨"guest", "/tmp"⟩ (.writeText "x" "hi")).2 := by
  have reachable : Reachable Snapshot.Keyed privateMachine := (sharedMachine_reachable _).setUmask _
  have bare : Path.endsInSlash "x" = false := by decide
  have writes : (Request.writeText "x" "hi").Writes "x" "hi" := ⟨rfl, rfl⟩
  refine ⟨_, reachable, bare, writes, rfl, ?_⟩
  obtain ⟨done, holds⟩ := (write_done_iff reachable ⟨"guest", "/tmp"⟩ bare writes).1 "." "x" _ rfl
    (by decide) (by decide) (by decide) rfl rfl rfl rfl rfl
  obtain ⟨file, served⟩ := done.mpr (.inr rfl)
  exact ⟨file, served, holds file served⟩

/-- Where the mask takes the owner's write permission away, a user who may make the file is
refused the write that makes it. -/
theorem first_write_masked : ∃ directory,
    Reachable Snapshot.Keyed (sharedMachine.setUmask "222").2 ∧
      Path.endsInSlash "/tmp/x" = false ∧ Path.splitParent "/tmp/x" = ("/tmp", "x") ∧
      (sharedMachine.setUmask "222").2.volume.lookup ⟨"guest", "/"⟩ true "/tmp" = .ok directory ∧
      directory.isDirectory = true ∧ directory.permits "guest" .write = true ∧
      directory.permits "guest" .execute = true ∧
      (sharedMachine.setUmask "222").2.volume.childNamed? directory "x" = none ∧
      ((sharedMachine.setUmask "222").2.serve ⟨"guest", "/"⟩ (.appendText "/tmp/x" "hi")).1 =
        .error (.denied "/tmp/x" "write") :=
  ⟨_, (sharedMachine_reachable _).setUmask "222", by decide, rfl, rfl, rfl, rfl, rfl, rfl, rfl⟩

end PocketShell
