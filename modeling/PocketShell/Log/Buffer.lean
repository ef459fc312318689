import PocketShell.Log.Basic

/-!
The buffer of recent log entries: it holds the last entries up to its capacity and answers queries
for a level, a subsystem and a number of entries.
-/
namespace PocketShell.Log

/-- The last `count` elements; all of them for zero, and for a negative number all but that many
first ones. -/
def lastOf {α : Type} (count : Int) (xs : List α) : List α :=
  if 0 < count then xs.drop (xs.length - count.toNat) else xs.drop (-count).toNat

/-- Recent entries, the oldest first. -/
structure Buffer where
  capacity : Int
  entries : List Entry
  deriving Repr

namespace Buffer

/-- The usual capacity. -/
def usualCapacity : Int := 10000

/-- A buffer without entries. -/
def empty (capacity : Int) : Buffer := ⟨capacity, []⟩

/-- One more entry; beyond the capacity the oldest ones go. -/
def emit (entry : Entry) (buffer : Buffer) : Buffer :=
  let entries := buffer.entries ++ [entry]
  if buffer.capacity < entries.length then { buffer with entries := lastOf buffer.capacity entries }
  else { buffer with entries }

/-- No entries any more. -/
def clear (buffer : Buffer) : Buffer := { buffer with entries := [] }

/-- The entry answers a query: an empty level or subsystem asks for nothing. -/
def answers (level subsystem : Option String) (entry : Entry) : Bool :=
  let wanted (asked : Option String) (found : Option Json) : Bool :=
    match asked with
    | none => true
    | some name => name.isEmpty || found.any (·.isText name)
  wanted level (some (.string entry.level)) && wanted subsystem entry.subsystem

/-- The last entries that answer a query, the oldest first. -/
def query (level subsystem : Option String) (limit : Int) (buffer : Buffer) : List Entry :=
  lastOf limit (buffer.entries.filter (answers level subsystem))

end Buffer

/-- The buffer that a session's log fills. -/
def recent (log : Log) : Buffer :=
  ⟨Buffer.usualCapacity, lastOf Buffer.usualCapacity log.entries.reverse⟩

end PocketShell.Log
