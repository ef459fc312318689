import PocketShell.Proofs.Fs.Acceptance
import PocketShell.Proofs.Fs.Layouts
import PocketShell.Proofs.Fs.Requests

/-! Runs of a machine. A machine starts from a stock layout or a snapshot and goes on by requests of
any users, by new masks and by loading snapshots; which snapshots come from outside is left open,
since what can be said of a run depends on it. The ids that a machine gives out are never in a
table that it takes over. -/
namespace PocketShell

open Volume

variable {kind : Snapshot → Prop} {machine before after : Machine} {snapshot : Snapshot}

/-- The machines that a run gets to, if the snapshots from outside that it loads are of some
kind. -/
inductive Reachable (kind : Snapshot → Prop) : Machine → Prop
  | build {layout : Layout} {umask : Json} {now : Binary64} {nextId : Nat} {log : Log}
      {machine : Machine} (stock : layout.Stock)
      (started : Machine.start (.layout layout) umask now nextId log = .ok machine) :
      Reachable kind machine
  | named {name : String} {umask : Json} {now : Binary64} {nextId : Nat} {log : Log}
      {machine : Machine}
      (started : Machine.start (.named name) umask now nextId log = .ok machine) :
      Reachable kind machine
  | adopt {snapshot : Snapshot} {umask : Json} {now : Binary64} {nextId : Nat} {log : Log}
      {machine : Machine} (source : kind snapshot)
      (started : Machine.start (.snapshot snapshot) umask now nextId log = .ok machine)
      (unused : machine.IdsFresh) : Reachable kind machine
  | serve {machine : Machine} (before : Reachable kind machine) (actor : Actor)
      (request : Request) : Reachable kind (machine.serve actor request).2
  | setUmask {machine : Machine} (before : Reachable kind machine) (text : String) :
      Reachable kind (machine.setUmask text).2
  | loadNamed {machine after : Machine} {name : String} (before : Reachable kind machine)
      (loaded : machine.loadNamed name = .ok after) : Reachable kind after
  | load {machine after : Machine} {snapshot : Snapshot} (before : Reachable kind machine)
      (source : kind snapshot) (loaded : machine.load snapshot = .ok after)
      (unused : after.IdsFresh) : Reachable kind after
  | deserialize {machine after : Machine} {text : String} (before : Reachable kind machine)
      (loaded : machine.deserialize text = .ok after) (source : kind (.ofVolume after.volume))
      (unused : after.IdsFresh) : Reachable kind after
  /-- A snapshot taken from a run can be loaded in another. -/
  | restore {machine donor after : Machine} (before : Reachable kind machine)
      (other : Reachable kind donor) (loaded : machine.load (.ofVolume donor.volume) = .ok after)
      (unused : after.IdsFresh) : Reachable kind after
  /-- Time passes, others log, and ids are given out elsewhere. -/
  | elapse {machine : Machine} (before : Reachable kind machine) (now : Binary64) (log : Log)
      {nextId : Nat} (later : machine.nextId ≤ nextId) :
      Reachable kind { machine with now, log, nextId }

/-- The machine that starts from the empty layout. -/
def bareMachine : Machine where
  volume := ⟨[Layout.freshRoot .zero (inodeId 0)], inodeId 0, Machine.initialUmask⟩
  now := .zero
  nextId := 1
  log := .atLevel .critical

theorem bareMachine_started :
    Machine.start (.layout []) (.string "022") .zero 0 (.atLevel .critical) = .ok bareMachine := rfl

theorem bareMachine_reachable (kind : Snapshot → Prop) : Reachable kind bareMachine :=
  .build .empty bareMachine_started

/-- The machine with one directory, in which everyone can write. -/
def sharedMachine : Machine := (bareMachine.serve ⟨rootUser, "/"⟩ (.mkdir "/tmp" (some "0777"))).2

theorem sharedMachine_reachable (kind : Snapshot → Prop) : Reachable kind sharedMachine :=
  (bareMachine_reachable kind).serve _ _

/-- A kind of snapshots that a run does not leave: stock layouts are of it, and so is whatever comes
of loading one or of a step. -/
structure Snapshot.Closed (kind : Snapshot → Prop) : Prop where
  keyed : ∀ snapshot, kind snapshot → snapshot.Keyed
  planted : ∀ {next places volume}, Layout.Planted next places volume → kind (.ofVolume volume)
  loaded : ∀ {snapshot machine after}, kind snapshot → Machine.load snapshot machine = .ok after →
    kind (.ofVolume after.volume)
  stepped : ∀ {user before after}, before.volume.Linked → Machine.Step user before after →
    kind (.ofVolume before.volume) → kind (.ofVolume after.volume)

/-- No directory of the snapshot but its root has the empty id. -/
def Snapshot.Traceable (snapshot : Snapshot) : Prop := (snapshot.volume 0).Traceable

/-- What is known of a machine that a run gets to. -/
structure Sound (kind : Snapshot → Prop) (machine : Machine) : Prop where
  linked : machine.volume.Linked
  fresh : machine.IdsFresh
  kept : kind (.ofVolume machine.volume)
  rooted : (∀ snapshot, kind snapshot → snapshot.Traceable) → machine.volume.Rooted

namespace Sound

/-- A volume that has just been taken over is rooted. -/
private theorem of_rooted (rooted : machine.volume.Rooted) (unused : machine.IdsFresh)
    (kept : kind (.ofVolume machine.volume)) : Sound kind machine :=
  ⟨rooted.linked, unused, kept, fun _ => rooted⟩

private theorem load (closed : Snapshot.Closed kind) (source : kind snapshot)
    (loaded : machine.load snapshot = .ok after) (unused : after.IdsFresh) : Sound kind after :=
  of_rooted (Snapshot.rooted_of_load (closed.keyed _ source) loaded) unused
    (closed.loaded source loaded)

/-- A stock layout uses up the ids that its inodes get. -/
private theorem loadNamed (closed : Snapshot.Closed kind) {name : String}
    (loaded : machine.loadNamed name = .ok after) : Sound kind after := by
  unfold Machine.loadNamed at loaded
  cases known : Layout.named? name with
  | none =>
    rw [known] at loaded
    cases loaded
  | some layout =>
    simp only [known, Machine.build] at loaded
    obtain ⟨volume, built, planted⟩ := Layout.build_planted (Layout.Stock.named known).wellFormed
      machine.now machine.nextId
    rw [built] at loaded
    refine load closed (closed.planted planted) loaded fun n ahead => ?_
    rw [Snapshot.nextId_of_load loaded] at ahead
    by_contra taken
    obtain ⟨inode, found⟩ := Option.ne_none_iff_exists'.mp taken
    have keyed : (Snapshot.ofVolume volume).Keyed := planted.rooted.linked.keyed
    obtain ⟨-, kept⟩ := Snapshot.kept_of_load keyed loaded
    obtain ⟨old, member, same, -⟩ := kept _ inode found
    have held := planted.rooted.linked.keyed.inode?_of_mem member
    rw [same, planted.fresh ahead] at held
    cases held

private theorem serve (closed : Snapshot.Closed kind) (sound : Sound kind machine) (actor : Actor)
    (request : Request) : Sound kind (machine.serve actor request).2 := by
  have step := machine.serve_step sound.linked sound.fresh actor request
  refine ⟨step.edit.linked sound.linked, step.supplied.idsFresh sound.fresh,
    closed.stepped sound.linked step sound.kept, fun traceable => ?_⟩
  have rooted := sound.rooted traceable
  exact (step.edit.rooted_iff rooted).mpr
    (step.edit.not_swallows rooted (traceable _ sound.kept))

private theorem setUmask (sound : Sound kind machine) (text : String) :
    Sound kind (machine.setUmask text).2 := by
  unfold Machine.setUmask
  cases Mode.parse? true text with
  | none => exact sound
  | some mode =>
    exact ⟨sound.linked.remask _, sound.fresh, sound.kept,
      fun traceable => (sound.rooted traceable).remask _⟩

private theorem elapse (sound : Sound kind machine) (now : Binary64) (log : Log) {nextId : Nat}
    (later : machine.nextId ≤ nextId) : Sound kind { machine with now, log, nextId } :=
  ⟨sound.linked, fun n ahead => sound.fresh n (Nat.le_trans later ahead), sound.kept, sound.rooted⟩

end Sound

/-- Before it takes over its first volume a machine is blank. -/
private theorem start_eq (origin : Origin) (umask : Json) (now : Binary64) (nextId : Nat)
    (log : Log) : ∃ blank : Machine, Machine.start origin umask now nextId log = match origin with
      | .layout layout => .ok ((blank.build layout).2.adopt (blank.build layout).1)
      | .named name => blank.loadNamed name
      | .snapshot snapshot => blank.load snapshot :=
  ⟨_, rfl⟩

/-- Whatever a run does, the machine stays sound. -/
theorem Reachable.sound (closed : Snapshot.Closed kind) (reachable : Reachable kind machine) :
    Sound kind machine := by
  induction reachable with
  | @build layout umask now nextId log machine stock started =>
    obtain ⟨blank, same⟩ := start_eq (.layout layout) umask now nextId log
    rw [same] at started
    cases started
    obtain ⟨volume, built, planted⟩ := Layout.build_planted stock.wellFormed blank.now blank.nextId
    have kept : kind (.ofVolume volume) := closed.planted planted
    simp only [Machine.build, built]
    exact Sound.of_rooted (planted.rooted.remask _) (fun n ahead => planted.fresh ahead) kept
  | @named name umask now nextId log machine started =>
    obtain ⟨blank, same⟩ := start_eq (.named name) umask now nextId log
    rw [same] at started
    exact Sound.loadNamed closed started
  | @adopt snapshot umask now nextId log machine source started unused =>
    obtain ⟨blank, same⟩ := start_eq (.snapshot snapshot) umask now nextId log
    rw [same] at started
    exact Sound.load closed source started unused
  | serve before actor request ih => exact ih.serve closed actor request
  | setUmask before text ih => exact ih.setUmask text
  | loadNamed before loaded ih => exact Sound.loadNamed closed loaded
  | load before source loaded unused ih => exact Sound.load closed source loaded unused
  | @deserialize machine after text before loaded source unused ih =>
    obtain ⟨snapshot, decoded, loaded⟩ := bind_eq_ok.mp loaded
    cases loaded
    exact Sound.of_rooted (Snapshot.ofText_rooted _ decoded) unused source
  | restore before other loaded unused ih donor =>
    exact Sound.load closed donor.kept loaded unused
  | elapse before now log later ih => exact ih.elapse now log later

/-! ## Kinds of snapshots -/

/-- In every snapshot that is taken over, an id stands for one inode. -/
theorem Snapshot.keyed_closed : Snapshot.Closed Snapshot.Keyed where
  keyed := fun _ keyed => keyed
  planted := fun planted => planted.rooted.linked.keyed
  loaded := fun keyed loaded => (rooted_of_load keyed loaded).linked.keyed
  stepped := fun linked step _ => (step.edit.linked linked).keyed

/-- A snapshot in which the way up from every inode can be followed. -/
def Snapshot.KeyedTraceable (snapshot : Snapshot) : Prop := snapshot.Keyed ∧ snapshot.Traceable

/-- A snapshot with an id for every inode and, but for the root, a name that a path can spell. -/
structure Snapshot.Plain (snapshot : Snapshot) : Prop where
  keyed : snapshot.Keyed
  numbered : (snapshot.volume 0).Numbered
  proper : (snapshot.volume 0).Proper

namespace Snapshot

/-- An inode of a snapshot is found in the volume that the snapshot makes. -/
private theorem Keyed.inode? {old : Inode} (keyed : snapshot.Keyed)
    (member : old ∈ snapshot.inodes) : (snapshot.volume 0).inode? old.id = some old :=
  find_of_mem_nodup keyed member

theorem keyedTraceable_closed : Closed KeyedTraceable where
  keyed := fun _ kept => kept.1
  planted := fun planted => ⟨planted.rooted.linked.keyed, planted.numbered.traceable⟩
  loaded := by
    rintro snapshot machine after ⟨keyed, traceable⟩ loaded
    refine ⟨(rooted_of_load keyed loaded).linked.keyed, fun id directory found shape inner => ?_⟩
    obtain ⟨root, kept⟩ := kept_of_load keyed loaded
    obtain ⟨old, member, rfl, -, type⟩ := kept id directory found
    refine traceable old.id old (keyed.inode? member) ?_ fun top => inner (top.trans root.symm)
    simpa only [Record.isDirectory, type] using shape
  stepped := fun linked step kept =>
    ⟨(step.edit.linked linked).keyed, step.traceable linked kept.2⟩

theorem plain_closed : Closed Plain where
  keyed := fun _ plain => plain.keyed
  planted := fun planted => ⟨planted.rooted.linked.keyed, planted.numbered, planted.proper⟩
  loaded := by
    rintro snapshot machine after plain loaded
    obtain ⟨root, kept⟩ := kept_of_load plain.keyed loaded
    refine ⟨(rooted_of_load plain.keyed loaded).linked.keyed, ?_, ?_⟩
    · intro id inode found
      obtain ⟨old, member, rfl, -, -⟩ := kept id inode found
      exact plain.numbered old.id old (plain.keyed.inode? member)
    · intro id inode found inner
      obtain ⟨old, member, rfl, name, -⟩ := kept id inode found
      rw [← name]
      exact plain.proper old.id old (plain.keyed.inode? member)
        fun top => inner (top.trans root.symm)
  stepped := fun linked step plain =>
    ⟨(step.edit.linked linked).keyed, step.numbered plain.numbered,
      step.proper linked plain.numbered plain.proper⟩

end Snapshot

end PocketShell
