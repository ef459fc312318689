import PocketShell.Fs.Machine

/-!
Operations on modes, owners and the mask for new modes.
-/
namespace PocketShell

/-- The bits that a mask for new modes may hold. -/
def Mode.maskable : Mode := 0o777#12

namespace Fs

/-- Sets the permission bits. Only the owner and root may, and the mode has exactly three digits. -/
def chmod (path mode : String) : Fs Inode := do
  let inode ← lookup true path
  let user := (← read).user
  if user != rootUser && user != inode.owner then deny path "chmod"
  match Mode.parse? false mode with
  | none => refuse .invalidMode
  | some bits =>
    let changed := inode.chmod (← get).now bits
    put changed
    note "Changed mode" [("path", .string path), ("mode", .string bits.octal)]
    return changed

/-- Sets the owner and, if one is given, the group. Only root may. -/
def chown (path owner : String) (group : Option String) : Fs Inode := do
  if (← read).user != rootUser then deny path "chown"
  if owner.isEmpty then refuse .invalidArgument
  let inode ← lookup true path
  let changed := inode.chown (← get).now owner group
  put changed
  return changed

end Fs

/-- Sets the mask for new modes from three or four octal digits; false if the text is no mode. -/
def Machine.setUmask (text : String) (machine : Machine) : Bool × Machine :=
  match Mode.parse? true text with
  | none => (false, machine)
  | some mode =>
    (true, { machine with volume := { machine.volume with umask := mode &&& Mode.maskable } })

end PocketShell
