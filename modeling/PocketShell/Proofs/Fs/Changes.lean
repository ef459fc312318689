import PocketShell.Proofs.Fs.Links

/-! What a user can do to a volume in one operation, and what it takes. Every operation that
succeeds makes one of these changes; that a change keeps the volume a tree and that it is accounted
for by the permissions on what it touches is said here once for all of them. -/
namespace PocketShell.Volume

variable {volume after origin : Volume} {inode gate source target parent child old new : Inode}
  {user id name holder entry : String} {now : Binary64} {gone : List String} {trail : List Inode}

/-- The user may take the entry out of the directory: both its write and its execute permission are
needed, and where it is sticky also to own the entry or the directory. -/
def MayUnlink (user : String) (parent entry : Inode) : Prop :=
  user = rootUser ∨ (parent.permits user .write = true ∧ parent.permits user .execute = true ∧
    (parent.mode.sticky = true → user = entry.owner ∨ user = parent.owner))

theorem MayUnlink.writes (may : MayUnlink user parent child) :
    parent.permits user .write = true := by
  rcases may with rfl | ⟨writes, -⟩
  · simp [Record.permits]
  · exact writes

/-- The inode hangs in a directory that the user may take it out of. -/
def Released (volume : Volume) (user : String) (inode : Inode) : Prop :=
  ∃ directory, volume.inode? directory.id = some directory ∧ inode.id ∈ directory.children ∧
    inode.parent = some directory.id ∧ MayUnlink user directory inode

/-- A name that an entry can get: a proper one, that of another entry, or that of an inode which
is put into a directory not within it. -/
def NameFor (volume : Volume) (user name : String) : Prop :=
  Path.IsEntryName name ∨ ∃ source, volume.inode? source.id = some source ∧ source.name = name ∧
    ((∃ holder, volume.Lists holder source.id) ∨
      ∃ trail gate, volume.Route user trail gate ∧
        (source.isDirectory = true → volume.isWithin gate source = false))

/-! ## Writing an inode over itself -/

/-- The user may leave the second inode in the place of the first: they have the same links, and
content, mode and owners differ only as far as the user may change them. -/
structure Amends (user : String) (inode target : Inode) : Prop where
  id : target.id = inode.id
  type : target.type = inode.type
  outline : target.outline = inode.outline
  sized : (∀ content, inode.payload = .file content → inode.size = byteSize content) →
    ∀ content, target.payload = .file content → target.size = byteSize content
  content : (target.payload = inode.payload ∧ target.size = inode.size) ∨
    inode.permits user .write = true
  mode : target.mode = inode.mode ∨ user = rootUser ∨ user = inode.owner
  owners : (target.owner = inode.owner ∧ target.group = inode.group) ∨ user = rootUser

theorem Amends.touch : Amends user inode (inode.touch now) where
  id := rfl
  type := rfl
  outline := rfl
  sized := fun sized => sized
  content := .inl ⟨rfl, rfl⟩
  mode := .inl rfl
  owners := .inl ⟨rfl, rfl⟩

theorem Amends.setContent {content : String} (file : inode.isFile = true)
    (writes : inode.permits user .write = true) :
    Amends user inode (inode.setContent now content) := by
  cases payload : inode.payload with
  | file before =>
    refine ⟨rfl, ?_, ?_, ?_, .inr writes, .inl rfl, .inl ⟨rfl, rfl⟩⟩
    · simp [Record.type, Record.setContent, payload, Payload.type]
    · simp [Record.outline, Record.setContent, Record.isDirectory, Record.type, Record.children,
        payload, Payload.type]
    · intro _ written same
      simp only [Record.setContent, payload, Payload.file.injEq] at same
      simp [Record.setContent, same]
  | directory entries => simp [Record.isFile, Record.type, payload, Payload.type] at file
  | symlink target => simp [Record.isFile, Record.type, payload, Payload.type] at file

theorem Amends.chmod {mode : Mode} (owned : user = rootUser ∨ user = inode.owner) :
    Amends user inode (inode.chmod now mode) where
  id := rfl
  type := rfl
  outline := rfl
  sized := fun sized => sized
  content := .inl ⟨rfl, rfl⟩
  mode := .inr owned
  owners := .inl ⟨rfl, rfl⟩

theorem Amends.chown {owner : String} {group : Option String} :
    Amends rootUser inode (inode.chown now owner group) where
  id := rfl
  type := rfl
  outline := rfl
  sized := fun sized => sized
  content := .inl ⟨rfl, rfl⟩
  mode := .inl rfl
  owners := .inr rfl

/-! ## Growing new entries -/

/-- The volume after new entries of the user's have been put into one of its directories or into
entries that are new themselves. -/
inductive Growth (user : String) (origin : Volume) (gate : Inode) : Volume → Prop
  | unchanged : Growth user origin gate origin
  | graft {volume : Volume} {parent child : Inode} {now : Binary64}
      (before : Growth user origin gate volume) (fits : volume.Fits parent child)
      (place : parent.id = gate.id ∨ origin.inode? parent.id = none) (own : child.owner = user)
      (named : origin.NameFor user child.name) :
      Growth user origin gate (volume.graft now parent child)

namespace Growth

theorem rootId_eq (growth : Growth user origin gate after) : after.rootId = origin.rootId := by
  induction growth with
  | unchanged => rfl
  | graft before fits place own named ih => rw [rootId_graft, ih]

/-- Nothing is written over but the directory that grows. -/
theorem kept (growth : Growth user origin gate after) (differs : id ≠ gate.id)
    (held : origin.inode? id = some inode) : after.inode? id = some inode := by
  induction growth with
  | unchanged => exact held
  | @graft volume parent child now before fits place own named ih =>
    refine fits.inode?_other ?_ ih
    rintro rfl
    rcases place with same | new
    · exact differs same
    · rw [held] at new
      cases new

/-- The directory that grows changes in nothing but its entries and its time. -/
theorem gate_kept (growth : Growth user origin gate after)
    (held : origin.inode? gate.id = some gate) (directory : gate.isDirectory = true) :
    ∃ time entries, after.inode? gate.id = some (gate.withChildren time entries) := by
  induction growth with
  | unchanged =>
    refine ⟨gate.modified, gate.children, ?_⟩
    rw [held]
    congr 1
    cases payload : gate.payload with
    | directory entries =>
      have same : gate.children = entries := by simp [Record.children, payload]
      rw [same, Record.withChildren, ← payload]
    | file content => simp [Record.isDirectory, Record.type, payload, Payload.type] at directory
    | symlink target => simp [Record.isDirectory, Record.type, payload, Payload.type] at directory
  | @graft volume parent child now before fits place own named ih =>
    obtain ⟨time, entries, found⟩ := ih
    by_cases here : gate.id = parent.id
    · have same := fits.held
      rw [← here, found] at same
      cases same
      exact ⟨now, entries ++ [child.id], fits.inode?_parent⟩
    · exact ⟨time, entries, fits.inode?_other here found⟩

/-- What is new belongs to the user and has a name that an entry can get. -/
theorem new_entry (growth : Growth user origin gate after) (fresh : origin.inode? id = none)
    (found : after.inode? id = some inode) :
    inode.owner = user ∧ origin.NameFor user inode.name := by
  induction growth generalizing id inode with
  | unchanged =>
    rw [fresh] at found
    cases found
  | @graft volume parent child now before fits place own named ih =>
    rw [inode?_graft] at found
    split at found
    · cases found
      exact ⟨own, named⟩
    split at found
    · rename_i here
      cases found
      have owned : parent.owner = user ∧ origin.NameFor user parent.name :=
        ih fresh (here ▸ fits.held)
      exact owned
    · exact ih fresh found

theorem linked (growth : Growth user origin gate after) (start : origin.Linked) :
    after.Linked := by
  induction growth with
  | unchanged => exact start
  | graft before fits place own named ih => exact ih.graft fits

/-- Whatever was reached still is, and so is all that is new. -/
theorem reached (growth : Growth user origin gate after)
    (start : ∀ id inode, origin.inode? id = some inode → origin.Below origin.rootId id) :
    ∀ id inode, after.inode? id = some inode → after.Below after.rootId id := by
  induction growth with
  | unchanged => exact start
  | @graft volume parent child now before fits place own named ih =>
    intro id inode found
    have onPath : (volume.graft now parent child).Below volume.rootId parent.id :=
      fits.below (ih _ _ fits.held)
    rw [inode?_graft] at found
    split at found
    · rename_i new
      rw [new]
      exact onPath.trans fits.below_child
    split at found
    · rename_i here
      rw [here]
      exact onPath
    · exact fits.below (ih id inode found)

/-- An old inode hangs where it hung before. -/
theorem lists_before (growth : Growth user origin gate after) (start : origin.Linked)
    (held : origin.inode? gate.id = some gate) (directory : gate.isDirectory = true)
    (listed : after.Lists holder entry) (before : origin.inode? entry = some old)
    (found : after.inode? entry = some inode) :
    origin.Lists holder entry ∧ inode.name = old.name := by
  have up := (growth.linked start).parent_of_lists listed found
  have same : inode.name = old.name ∧ inode.parent = old.parent := by
    by_cases here : entry = gate.id
    · obtain ⟨time, entries, now⟩ := growth.gate_kept held directory
      subst here
      rw [now] at found
      rw [held] at before
      cases found
      cases before
      exact ⟨rfl, rfl⟩
    · rw [growth.kept here before] at found
      cases found
      exact ⟨rfl, rfl⟩
  exact ⟨(start.lists_iff _ _).mpr ⟨old, before, same.2.symm.trans up⟩, same.1⟩

/-- What hung below an inode still does. -/
theorem below_after {top : String} (growth : Growth user origin gate after)
    (hung : origin.Below top id) : after.Below top id := by
  induction growth with
  | unchanged => exact hung
  | graft before fits place own named ih => exact fits.below ih

/-- Of the old directories only the one that grows gets new entries. -/
theorem eq_gate_of_lists (growth : Growth user origin gate after) (start : origin.Linked)
    (listed : after.Lists holder entry) (held : origin.inode? holder ≠ none)
    (fresh : origin.inode? entry = none) : holder = gate.id := by
  induction growth with
  | unchanged =>
    obtain ⟨inode, found, -⟩ := (start.lists_iff _ _).mp listed
    rw [fresh] at found
    cases found
  | graft before fits place own named ih =>
    rcases fits.lists_iff.mp listed with old | ⟨rfl, -⟩
    · exact ih old
    · exact place.resolve_right held

/-- The name of an entry can be given again. -/
theorem nameFor_entry (growth : Growth user origin gate after) (start : origin.Linked)
    (held : origin.inode? gate.id = some gate) (directory : gate.isDirectory = true)
    (listed : after.Lists holder entry) (found : after.inode? entry = some inode) :
    origin.NameFor user inode.name := by
  cases before : origin.inode? entry with
  | none => exact (growth.new_entry before found).2
  | some old =>
    obtain ⟨listedBefore, same⟩ := growth.lists_before start held directory listed before found
    rw [← id_of_inode? before] at listedBefore
    exact .inr ⟨old, inode?_self before, same.symm, .inl ⟨holder, listedBefore⟩⟩

end Growth

/-! ## The changes -/

/-- A directory that by the test does not lie in an inode is another one. -/
theorem ids_ne_of_apart (held : volume.inode? target.id = some target)
    (found : volume.inode? source.id = some source) (directory : target.isDirectory = true)
    (apart : source.isDirectory = true → volume.isWithin target source = false) :
    target.id ≠ source.id := by
  intro same
  rw [same, found] at held
  cases held
  have passed := apart directory
  have itself : volume.isWithin source source = true :=
    List.any_eq_true.mpr ⟨source, head_mem_climb _, by simp⟩
  rw [itself] at passed
  cases passed

/-- Where a directory that passes the test does lie in the inode, one with the empty id is between
them. -/
theorem unnamed_of_apart {trail : List Inode} (linked : volume.Linked)
    (route : volume.Route user trail target) (found : volume.inode? source.id = some source)
    (directory : target.isDirectory = true)
    (apart : source.isDirectory = true → volume.isWithin target source = false)
    (inside : volume.Below source.id target.id) :
    ∃ met ∈ trail, volume.Below source.id met.id ∧ met.id = "" := by
  rcases (below_iff found _).mp inside with same | ⟨entry, listed, -⟩
  · exact absurd same (ids_ne_of_apart route.held found directory apart)
  · by_contra none
    push Not at none
    have seen := route.isWithin_of_named linked inside none
    rw [apart (isDirectory_of_mem_children listed)] at seen
    cases seen

/-- Where the test is complete, a directory that passes it does not lie in the inode. -/
theorem outside_of_apart (linked : volume.Linked) (traceable : volume.Traceable)
    (route : volume.Route user trail target) (found : volume.inode? source.id = some source)
    (directory : target.isDirectory = true)
    (apart : source.isDirectory = true → volume.isWithin target source = false)
    (seen : source.id = volume.rootId → volume.rootId ≠ "") :
    ¬ volume.Below source.id target.id := by
  intro below
  rcases (below_iff found _).mp below with same | ⟨entry, listed, -⟩
  · exact ids_ne_of_apart route.held found directory apart same
  · have passed := apart (isDirectory_of_mem_children listed)
    rw [isWithin_of_below linked traceable route below seen] at passed
    cases passed

/-- The second volume lists an inode in a directory that lay below it in the first. -/
def Swallows (before after : Volume) : Prop :=
  ∃ source holder, (∃ inode, before.inode? source = some inode) ∧ before.Below source holder ∧
    after.Lists holder source

/-- What one operation of a user's can make of a volume. -/
inductive Edit (user : String) (volume : Volume) : Volume → Prop
  /-- Nothing changes. -/
  | keep : Edit user volume volume
  /-- An inode is written over itself. -/
  | amend {inode target : Inode} (held : volume.inode? inode.id = some inode)
      (amends : Amends user inode target) : Edit user volume (volume.put target)
  /-- A directory that the user reaches and may write to takes new entries. -/
  | grow {trail : List Inode} {gate : Inode} {after : Volume}
      (route : volume.Route user trail gate) (directory : gate.isDirectory = true)
      (writes : gate.permits user .write = true) (growth : Growth user volume gate after) :
      Edit user volume after
  /-- An entry goes with all below it, each of which the user may take out of its directory. -/
  | prune {trail : List Inode} {parent source : Inode} {now : Binary64} {gone : List String}
      (route : volume.Route user trail source) (hangs : volume.Hangs parent source)
      (all : ∀ id, id ∈ gone ↔ volume.Below source.id id)
      (released : ∀ inode, volume.inode? inode.id = some inode → volume.Below source.id inode.id →
        volume.Released user inode) :
      Edit user volume (volume.prune now parent source gone)
  /-- An entry is moved, though not by a test of its lineage into itself. -/
  | rehang {trail : List Inode} {parent target source : Inode} {name : String} {now : Binary64}
      (moves : volume.Moves parent target source name) (route : volume.Route user trail target)
      (released : volume.Released user source) (writes : target.permits user .write = true)
      (named : volume.NameFor user name)
      (apart : source.isDirectory = true → volume.isWithin target source = false) :
      Edit user volume (volume.rehang now parent target source name)

namespace Edit

theorem rootId_eq (edit : Edit user volume after) : after.rootId = volume.rootId := by
  cases edit with
  | keep => rfl
  | amend held amends => rfl
  | grow route directory writes growth => exact growth.rootId_eq
  | prune route hangs all released => rfl
  | rehang moves route released writes named apart => rfl

/-- Every change keeps a volume linked. -/
theorem linked (edit : Edit user volume after) (linked : volume.Linked) : after.Linked := by
  cases edit with
  | keep => exact linked
  | amend held amends =>
    refine linked.put_outline held amends.id amends.outline (amends.sized ?_)
    intro content file
    exact linked.sized _ _ content held file
  | grow route directory writes growth => exact growth.linked linked
  | prune route hangs all released => exact hangs.prune_linked linked all
  | rehang moves route released writes named apart => exact moves.rehang_linked linked

/-- Only a move swallows, namely of an entry below itself. -/
private theorem moves_of_swallows (edit : Edit user volume after) (rooted : volume.Rooted)
    (swallows : volume.Swallows after) :
    ∃ trail parent target source name now, volume.Moves parent target source name ∧
      volume.Route user trail target ∧
      (source.isDirectory = true → volume.isWithin target source = false) ∧
      volume.Below source.id target.id ∧ after = volume.rehang now parent target source name := by
  obtain ⟨source, holder, ⟨inode, held⟩, below, listed⟩ := swallows
  cases edit with
  | keep => exact absurd below (rooted.not_below listed)
  | amend present amends =>
    have before := (lists_put_outline present amends.id amends.outline).mp listed
    exact absurd below (rooted.not_below before)
  | grow route directory writes growth =>
    obtain ⟨now, found, -⟩ := ((growth.linked rooted.linked).lists_iff _ _).mp listed
    have before := growth.lists_before rooted.linked route.held directory listed held found
    exact absurd below (rooted.not_below before.1)
  | prune route hangs all released =>
    have before := (hangs.lists_prune rooted.linked all).mp listed
    exact absurd below (rooted.not_below before.1)
  | rehang moves route released writes named apart =>
    rcases (moves.lists_rehang rooted.linked).mp listed with ⟨before, -⟩ | ⟨rfl, rfl⟩
    · exact absurd below (rooted.not_below before)
    · exact ⟨_, _, _, _, _, _, moves, route, apart, below, rfl⟩

/-- A change keeps everything reached, unless it swallows. -/
private theorem reached (edit : Edit user volume after) (rooted : volume.Rooted)
    (free : ¬ volume.Swallows after) :
    ∀ id inode, after.inode? id = some inode → after.Below after.rootId id := by
  have linked := rooted.linked
  cases edit with
  | keep => exact rooted.reached
  | @amend inode target held amends =>
    intro id found present
    have old : volume.inode? id ≠ none := by
      intro gone
      rw [(inode?_put_eq_none_iff (amends.id ▸ held)).mpr gone] at present
      cases present
    obtain ⟨before, held'⟩ := Option.ne_none_iff_exists'.mp old
    refine Relation.ReflTransGen.mono ?_ _ _ (rooted.reached id before held')
    intro holder entry listed
    exact (lists_put_outline held amends.id amends.outline).mpr listed
  | grow route directory writes growth => exact growth.reached rooted.reached
  | @prune trail parent source now gone route hangs all released =>
    intro id inode found
    rw [inode?_prune] at found
    split at found
    · rename_i here
      rw [here]
      exact hangs.prune_below linked all (rooted.reached _ _ hangs.above)
        (fun cut => hangs.outside ((all _).mp cut))
    split at found
    · cases found
    · rename_i stays
      exact hangs.prune_below linked all (rooted.reached id inode found) stays
  | @rehang trail parent target source name now moves route released writes named apart =>
    have outside : ¬ volume.Below source.id target.id := fun inside =>
      free ⟨_, _, ⟨source, moves.hangs.held⟩, inside,
        (moves.lists_rehang linked).mpr (.inr ⟨rfl, rfl⟩)⟩
    intro id inode found
    have old : volume.inode? id ≠ none := by
      intro gone
      rw [moves.inode?_rehang_eq_none_iff.mpr gone] at found
      cases found
    obtain ⟨before, held⟩ := Option.ne_none_iff_exists'.mp old
    exact moves.rehang_below linked (rooted.reached id before held)
      (rooted.reached _ _ moves.held) outside

/-- A change leaves a rooted volume rooted exactly if it does not swallow. -/
theorem rooted_iff (edit : Edit user volume after) (rooted : volume.Rooted) :
    after.Rooted ↔ ¬ volume.Swallows after := by
  constructor
  · intro still swallows
    obtain ⟨trail, parent, target, source, name, now, moves, -, -, inside, rfl⟩ :=
      edit.moves_of_swallows rooted swallows
    have present : (volume.rehang now parent target source name).inode? source.id = some _ :=
      inode?_rehang.trans (if_pos rfl)
    exact moves.not_below_of_rehang rooted.linked inside (still.reached _ _ present) .refl
  · intro free
    exact ⟨edit.linked rooted.linked, edit.reached rooted free⟩

/-- In a traceable volume no change swallows. -/
theorem not_swallows (edit : Edit user volume after) (rooted : volume.Rooted)
    (traceable : volume.Traceable) : ¬ volume.Swallows after := by
  intro swallows
  obtain ⟨trail, parent, target, source, name, now, moves, route, apart, inside, -⟩ :=
    edit.moves_of_swallows rooted swallows
  exact outside_of_apart rooted.linked traceable route moves.hangs.held moves.directory apart
    (fun top => absurd top (moves.hangs.ne_root rooted.linked)) inside

end Edit

/-! ## What a change is accounted for by -/

/-- How an inode may differ after an operation of a user's: its content and entries if the user may
write to it, its mode if the user owns it, its owners only for root, its place if the user may take
it from where it was. -/
structure Alters (volume : Volume) (user : String) (old new : Inode) : Prop where
  type : new.type = old.type
  content : (new.payload = old.payload ∧ new.size = old.size) ∨ old.permits user .write = true
  mode : new.mode = old.mode ∨ user = rootUser ∨ user = old.owner
  owners : (new.owner = old.owner ∧ new.group = old.group) ∨ user = rootUser
  place : (new.name = old.name ∧ new.parent = old.parent) ∨ volume.Released user old
  named : new.name = old.name ∨ volume.NameFor user new.name

/-- Everything that two volumes differ in is within what the user may do to the first. -/
structure Accounts (user : String) (before after : Volume) : Prop where
  altered : ∀ id old new, before.inode? id = some old → after.inode? id = some new →
    before.Alters user old new
  removed : ∀ id old, before.inode? id = some old → after.inode? id = none →
    before.Released user old
  created : ∀ id new, before.inode? id = none → after.inode? id = some new →
    new.owner = user ∧ before.NameFor user new.name

namespace Alters

theorem refl : volume.Alters user inode inode :=
  ⟨rfl, .inl ⟨rfl, rfl⟩, .inl rfl, .inl ⟨rfl, rfl⟩, .inl ⟨rfl, rfl⟩, .inl rfl⟩

/-- A directory that may be written to can get other entries. -/
theorem withChildren {entries : List String} (directory : inode.isDirectory = true)
    (writes : inode.permits user .write = true) :
    volume.Alters user inode (inode.withChildren now entries) := by
  refine ⟨?_, .inr writes, .inl rfl, .inl ⟨rfl, rfl⟩, .inl ⟨rfl, rfl⟩, .inl rfl⟩
  have type : inode.type = .directory := by simpa [Record.isDirectory] using directory
  rw [type]
  rfl

end Alters

/-- The directory that the user may take an inode out of is the one that holds it. -/
private theorem Released.writes (released : volume.Released user source)
    (hangs : volume.Hangs parent source) : parent.permits user .write = true := by
  obtain ⟨directory, held, -, up, may⟩ := released
  rw [hangs.up] at up
  rw [← Option.some.inj up, hangs.above] at held
  cases held
  exact may.writes

namespace Accounts

/-- Where the ids stay as they are, only what the inodes become has to be accounted for. -/
private theorem of_same_ids
    (ids : ∀ id, after.inode? id = none ↔ volume.inode? id = none)
    (altered : ∀ id old new, volume.inode? id = some old → after.inode? id = some new →
      volume.Alters user old new) : Accounts user volume after := by
  refine ⟨altered, ?_, ?_⟩
  · intro id old before gone
    rw [(ids id).mp gone] at before
    cases before
  · intro id new fresh found
    rw [(ids id).mpr fresh] at found
    cases found

private theorem amend (held : volume.inode? inode.id = some inode)
    (amends : Amends user inode target) : Accounts user volume (volume.put target) := by
  have here : volume.inode? target.id = some inode := by
    rw [amends.id]
    exact held
  refine of_same_ids (fun id => inode?_put_eq_none_iff here) ?_
  intro id old new before found
  rw [inode?_put] at found
  split at found
  · rename_i same
    rw [same, here] at before
    cases before
    cases found
    have outline := amends.outline
    simp only [Record.outline, Prod.mk.injEq] at outline
    exact ⟨amends.type, amends.content, amends.mode, amends.owners,
      .inl ⟨outline.1, outline.2.2.2⟩, .inl outline.1⟩
  · rw [before] at found
    cases found
    exact .refl

private theorem grow (held : volume.inode? gate.id = some gate)
    (directory : gate.isDirectory = true) (writes : gate.permits user .write = true)
    (growth : Growth user volume gate after) : Accounts user volume after := by
  obtain ⟨time, entries, present⟩ := growth.gate_kept held directory
  refine ⟨?_, ?_, fun id new => growth.new_entry⟩
  · intro id old new before found
    by_cases here : id = gate.id
    · subst here
      rw [held] at before
      rw [present] at found
      cases before
      cases found
      exact .withChildren directory writes
    · rw [growth.kept here before] at found
      cases found
      exact .refl
  · intro id old before gone
    by_cases here : id = gate.id
    · rw [here, present] at gone
      cases gone
    · rw [growth.kept here before] at gone
      cases gone

private theorem prune (hangs : volume.Hangs parent source) (directory : parent.isDirectory = true)
    (all : ∀ id, id ∈ gone ↔ volume.Below source.id id)
    (released : ∀ inode, volume.inode? inode.id = some inode → volume.Below source.id inode.id →
      volume.Released user inode) :
    Accounts user volume (volume.prune now parent source gone) := by
  have writes := (released source hangs.held .refl).writes hangs
  refine ⟨?_, ?_, ?_⟩
  · intro id old new before found
    rw [inode?_prune] at found
    split at found
    · rename_i here
      rw [here, hangs.above] at before
      cases before
      cases found
      exact .withChildren directory writes
    split at found
    · cases found
    · rw [before] at found
      cases found
      exact .refl
  · intro id old before cut
    rw [inode?_prune] at cut
    split at cut
    · cases cut
    split at cut
    · rename_i inside
      have below := (all id).mp inside
      rw [← id_of_inode? before] at below
      exact released old (inode?_self before) below
    · rw [before] at cut
      cases cut
  · intro id new fresh found
    rw [inode?_prune] at found
    split at found
    · rename_i here
      rw [here, hangs.above] at fresh
      cases fresh
    split at found
    · cases found
    · rw [fresh] at found
      cases found

private theorem rehang (moves : volume.Moves parent target source name)
    (directory : parent.isDirectory = true) (released : volume.Released user source)
    (writes : target.permits user .write = true) (named : volume.NameFor user name) :
    Accounts user volume (volume.rehang now parent target source name) := by
  refine of_same_ids (fun id => moves.inode?_rehang_eq_none_iff) ?_
  intro id old new before found
  rw [inode?_rehang] at found
  split at found
  · rename_i here
    rw [here, moves.hangs.held] at before
    cases before
    cases found
    exact ⟨rfl, .inl ⟨rfl, rfl⟩, .inl rfl, .inl ⟨rfl, rfl⟩, .inr released, .inr named⟩
  split at found
  · rename_i here
    rw [here, moves.held] at before
    cases before
    cases found
    exact .withChildren moves.directory writes
  split at found
  · rename_i here
    rw [here, moves.hangs.above] at before
    cases before
    cases found
    exact .withChildren directory (released.writes moves.hangs)
  · rw [before] at found
    cases found
    exact .refl

end Accounts

/-- Every change is within what the user may do. -/
theorem Edit.accounts (edit : Edit user volume after) (linked : volume.Linked) :
    Accounts user volume after := by
  have directory : ∀ {parent source}, volume.Hangs parent source → parent.isDirectory = true := by
    intro parent source hangs
    obtain ⟨holder, held, listed⟩ := hangs.lists linked
    rw [hangs.above] at held
    cases held
    exact isDirectory_of_mem_children listed
  cases edit with
  | keep =>
    refine .of_same_ids (fun id => .rfl) ?_
    intro id old new before found
    rw [before] at found
    cases found
    exact .refl
  | amend held amends => exact .amend held amends
  | grow route shape writes growth => exact .grow route.held shape writes growth
  | prune route hangs all released => exact .prune hangs (directory hangs) all released
  | rehang moves route released writes named apart =>
    exact .rehang moves (directory moves.hangs) released writes named

end PocketShell.Volume
