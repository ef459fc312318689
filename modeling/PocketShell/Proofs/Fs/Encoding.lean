import Mathlib.Tactic.IntervalCases
import PocketShell.Fs.Snapshot
import PocketShell.Proofs.Json.Coerced
import PocketShell.Proofs.Json.RoundTrip

/-! Records as structured data. A mode and an inode are taken back from the data written for them, and
that data can be written as text and read. Only the parent is not written. -/
namespace PocketShell

open Json

/-! ## Modes -/

namespace Mode

variable {mode : Mode} {cls : UserClass} {set : Bool} {place i : ℕ}

theorem getLsbD_bitIf (small : i < 12) :
    (bitIf set place).getLsbD i = (set && decide (place = i)) := by
  unfold bitIf
  cases set with
  | false => simp
  | true =>
    rw [if_pos rfl, BitVec.getLsbD_ofNat, Nat.pow_eq, Nat.testBit_two_pow]
    simp [small]

/-- The bits of a class are taken back from the data written for them. -/
private theorem classOfJson_toJson (mode : Mode) :
    classOfJson mode.toJson .owner "owner" =
      .ok (bitIf (mode.getLsbD 8) 8 ||| bitIf (mode.getLsbD 7) 7 ||| bitIf (mode.getLsbD 6) 6) ∧
    classOfJson mode.toJson .group "group" =
      .ok (bitIf (mode.getLsbD 5) 5 ||| bitIf (mode.getLsbD 4) 4 ||| bitIf (mode.getLsbD 3) 3) ∧
    classOfJson mode.toJson .others "others" =
      .ok (bitIf (mode.getLsbD 2) 2 ||| bitIf (mode.getLsbD 1) 1 ||| bitIf (mode.getLsbD 0) 0) :=
  ⟨rfl, rfl, rfl⟩

/-- So are the special bits. -/
private theorem special_toJson (mode : Mode) :
    ((mode.toJson.member? "sticky").map truthy).getD false = mode.getLsbD 9 ∧
    ((mode.toJson.member? "setuid").map truthy).getD false = mode.getLsbD 11 ∧
    ((mode.toJson.member? "setgid").map truthy).getD false = mode.getLsbD 10 :=
  ⟨rfl, rfl, rfl⟩

/-- A mode is taken back from the data written for it. -/
theorem ofJson_toJson (mode : Mode) : ofJson mode.toJson = .ok mode := by
  obtain ⟨owner, group, others⟩ := classOfJson_toJson mode
  obtain ⟨sticky, setuid, setgid⟩ := special_toJson mode
  unfold ofJson
  rw [owner, group, others]
  refine congrArg Except.ok (BitVec.eq_of_getLsbD_eq fun i small => ?_)
  simp only [BitVec.getLsbD_or, getLsbD_bitIf small, sticky, setuid, setgid]
  interval_cases i <;> simp

@[simp] theorem readable_toJson (levels : ℕ) (mode : Mode) :
    Readable (levels + 2) mode.toJson := by
  simp [toJson, classJson]

end Mode

/-! ## Inodes -/

namespace Record

variable {inode : Inode} {now : Binary64}

/-- The record that is decoded from the data of an inode. -/
def written (inode : Inode) : Record Json :=
  { inode with
    payload := match inode.payload with
      | .file content => .file content
      | .directory children => .directory (children.map .string)
      | .symlink target => .symlink target
    parent := none }

private theorem toItems_array (items : List Json) : toItems (.array items) = .ok items := by
  cases items <;> rfl

/-- An inode is taken back from the data written for it, whatever time it is. -/
theorem ofJson_toJson (now : Binary64)
    (sized : ∀ content, inode.payload = .file content → inode.size = byteSize content) :
    ofJson now (inode.toJson .string) = .ok inode.written := by
  obtain ⟨id, name, mode, owner, group, size, created, modified, payload, parent⟩ := inode
  cases payload with
  | file content =>
    have steps : ofJson now (toJson .string
        ⟨id, name, mode, owner, group, size, created, modified, .file content, parent⟩) =
      (Mode.ofJson mode.toJson).bind fun mode => .ok ⟨id, name, mode, owner, group,
        byteSize content, created, modified, .file content, none⟩ := rfl
    have whole : size = byteSize content := sized content rfl
    rw [steps, Mode.ofJson_toJson, whole]
    rfl
  | directory children =>
    have steps : ofJson now (toJson .string
        ⟨id, name, mode, owner, group, size, created, modified, .directory children, parent⟩) =
      (Mode.ofJson mode.toJson).bind fun mode =>
        (toItems (.array (children.map .string))).bind fun children => .ok ⟨id, name, mode, owner,
          group, size, created, modified, .directory children, none⟩ := rfl
    rw [steps, Mode.ofJson_toJson, toItems_array]
    rfl
  | symlink target =>
    have steps : ofJson now (toJson .string
        ⟨id, name, mode, owner, group, size, created, modified, .symlink target, parent⟩) =
      (Mode.ofJson mode.toJson).bind fun mode => .ok ⟨id, name, mode, owner, group, size, created,
        modified, .symlink target, none⟩ := rfl
    rw [steps, Mode.ofJson_toJson]
    rfl

/-- The numbers of a record can be written as text and read: a size that is not too long, and times
that are doubles. -/
structure Storable {ρ : Type} (record : Record ρ) : Prop where
  size : Binary64.digitCount record.size.natAbs ≤ Text.maxDigits
  created : record.created.Proper
  modified : record.modified.Proper

instance {ρ : Type} : DecidablePred fun record : Record ρ => record.Storable := fun record =>
  decidable_of_iff (Binary64.digitCount record.size.natAbs ≤ Text.maxDigits ∧
    record.created.Proper ∧ record.modified.Proper)
    ⟨fun ⟨size, created, modified⟩ => ⟨size, created, modified⟩,
      fun ⟨size, created, modified⟩ => ⟨size, created, modified⟩⟩

theorem readable_toJson (levels : ℕ) (storable : inode.Storable) :
    Readable (levels + 3) (inode.toJson .string) := by
  obtain ⟨size, created, modified⟩ := storable
  cases payload : inode.payload <;>
    simp [toJson, payloadJson, payload, size, created, modified]

/-- What is decoded from readable data can be written as text again, but for a file that is too long
for its size to be. -/
theorem ofJson_storable {levels : ℕ} {data : Json} {record : Record Json}
    (readable : Readable levels data) (clock : now.Proper) (ran : ofJson now data = .ok record)
    (short : ∀ content, record.payload = .file content →
      Binary64.digitCount record.size.natAbs ≤ Text.maxDigits) : record.Storable := by
  unfold ofJson at ran
  obtain ⟨_, -, ran⟩ := bind_eq_ok.mp ran
  obtain ⟨type, -, ran⟩ := bind_eq_ok.mp ran
  obtain ⟨_, -, ran⟩ := bind_eq_ok.mp ran
  obtain ⟨_, -, ran⟩ := bind_eq_ok.mp ran
  obtain ⟨_, -, ran⟩ := bind_eq_ok.mp ran
  obtain ⟨_, -, ran⟩ := bind_eq_ok.mp ran
  obtain ⟨_, -, ran⟩ := bind_eq_ok.mp ran
  obtain ⟨size, sized, ran⟩ := bind_eq_ok.mp ran
  obtain ⟨created, born, ran⟩ := bind_eq_ok.mp ran
  obtain ⟨modified, changed, ran⟩ := bind_eq_ok.mp ran
  have ofNumber {name : String} {x : Binary64}
      (taken : (data.memberD name (.float now)).toNumber = .ok x) : x.Proper := by
    obtain ⟨_, number⟩ := readable.memberD (.float clock)
    exact toNumber_proper number taken
  have zero : Binary64.digitCount (0 : ℤ).natAbs ≤ Text.maxDigits := by decide
  have ofSize : Binary64.digitCount size.natAbs ≤ Text.maxDigits := by
    obtain ⟨_, number⟩ := readable.memberD (.int zero)
    exact toInteger_short number sized
  cases type with
  | directory =>
    obtain ⟨children, -, ran⟩ := bind_eq_ok.mp ran
    cases ran
    exact ⟨ofSize, ofNumber born, ofNumber changed⟩
  | file =>
    dsimp only at ran
    split at ran
    · cases ran
      exact ⟨zero, ofNumber born, ofNumber changed⟩
    · cases ran
      exact ⟨short _ rfl, ofNumber born, ofNumber changed⟩
    · cases ran
  | symlink =>
    dsimp only at ran
    split at ran
    · cases ran
      exact ⟨ofSize, ofNumber born, ofNumber changed⟩
    · cases ran

end Record

end PocketShell
