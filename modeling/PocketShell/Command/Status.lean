import PocketShell.Clock
import PocketShell.Command.Identity
import PocketShell.Command.Surroundings

/-!
Commands about the simulated machine: fixed facts, the clock, the processes, and how much the
filesystem and the processes take.
-/
namespace PocketShell.Command

open Shell

/-- The facts that `uname` tells, by their letters and in their order. -/
def systemFacts (host : String) : List (Char × String) :=
  [('s', "Linux"), ('n', host), ('r', "6.1.0-vshell"), ('m', "x86_64"), ('o', "GNU/Linux")]

/-- Tells about the system: all facts, those asked for, or the first one. -/
def uname (args : List String) : Job := do
  let flagged := splitFlags args
  let facts := systemFacts (← hostName)
  let chosen :=
    if flagged.has 'a' then facts
    else match facts.filter fun (letter, _) => flagged.has letter with
      | [] => facts.take 1
      | chosen => chosen
  return .text (" ".intercalate (chosen.map (·.2)))

/-- Shows the date and time by a pattern. -/
def showTime (pattern : String) : Job := do
  return .text (← Moment.textOfNumber pattern (← Run.now))

/-- Shows the date and time. -/
def date (args : List String) : Job :=
  match args.head?.map String.toList with
  | some ('+' :: pattern) => showTime (String.ofList pattern)
  | _ => showTime "%a %b %d %H:%M:%S %Z %Y"

/-- A number in two places with zeros behind its sign. -/
def twoPlaces (n : Int) : String := if n < 0 then toString n else Text.padDigits 10 2 n.toNat

/-- The start of the earliest process; without any process the present. -/
def sessionStart (now : Binary64) : List Proc → Binary64
  | [] => now
  | first :: rest =>
    rest.foldl (fun least process => if process.started.blt least then process.started else least)
      first.started

/-- Shows how long the session has lasted. -/
def uptime : Job := do
  let now ← Run.now
  let processes := (← get).processes
  let seconds ← elapsed (sessionStart now processes) now
  let hours := seconds / 3600
  let minutes := twoPlaces (seconds % 3600 / 60)
  let clock ← Moment.textOfNumber "%H:%M:%S" now
  let users := max 1 (processes.map (·.user)).eraseDups.length
  let noun := if users = 1 then "user" else "users"
  return .text s!" {clock} up {hours}:{minutes}, {users} {noun}, load average: 0.00, 0.00, 0.00"

/-- The line of a process. -/
def processLine (now : Binary64) (process : Proc) : Except Fault String := do
  let seconds ← elapsed process.started now
  let time := ":".intercalate
    [twoPlaces (seconds / 3600), twoPlaces (seconds % 3600 / 60), twoPlaces (seconds % 60)]
  let pid := Text.padLeft 5 (← showNumber process.pid)
  return s!"{pid} {Text.padRight 8 process.user} {time} {process.command}"

/-- Lists the processes by their numbers. -/
def ps : Job := do
  let now ← Run.now
  let sorted := (← get).processes.mergeSort fun a b => decide (a.pid ≤ b.pid)
  let lines ← (sorted.mapM (processLine now) : Except Fault (List String))
  return .text (Text.unlines ("  PID USER         TIME CMD" :: lines))

/-- The processes without the first one of a number. -/
def endProcess (pid : Int) (processes : List Proc) : List Proc :=
  processes.eraseP (·.pid == pid)

/-- Ends the process that an argument names, if the user may. The first process is nobody's. -/
def endNamed (user : String) (processes : List Proc) (arg : String) :
    Except Fault (List Proc × Option String) := do
  if !Text.isDigits arg then
    return (processes, some s!"kill: {arg}: arguments must be process or job IDs")
  let pid ← wholeNumber arg
  match processes.find? (·.pid == pid) with
  | none => return (processes, some s!"kill: ({pid}) - No such process")
  | some process =>
    if pid = 1 || (user != rootUser && process.user != user) then
      return (processes, some s!"kill: ({pid}) - Operation not permitted")
    return (endProcess pid processes, none)

/-- Ends the processes that arguments name and tells what could not be done. -/
def endEach (user : String) (processes : List Proc) :
    List String → Except Fault (List Proc × List String)
  | [] => .ok (processes, [])
  | arg :: rest => do
    let (processes, error) ← endNamed user processes arg
    let (processes, errors) ← endEach user processes rest
    return (processes, error.toList ++ errors)

/-- Ends processes. -/
def kill (args : List String) : Job := do
  let pids := args.filter fun arg => !arg.startsWith "-"
  if pids.isEmpty then return .fail "kill" "usage: kill [-s sigspec | -signum] pid"
  let workspace ← get
  let (remaining, errors) ← endEach (← Run.user) workspace.processes pids
  if remaining.length != workspace.processes.length then
    set { workspace with processes := remaining }
    Run.tell (.setProcesses remaining)
  return .withErrors "" errors 1

/-- The size of the simulated disk in blocks of 1024 bytes. -/
def diskBlocks : Int := 10 * 1024 * 1024

/-- A number of blocks in a unit, the largest that leaves less than 1024, or the last of them. -/
def withUnit (blocks : Int) : List String → Int × String
  | [] => (blocks, "T")
  | unit :: larger => if blocks < 1024 then (blocks, unit) else withUnit (blocks / 1024) larger

/-- A number of blocks as it is shown, with a unit if people are to read it. -/
def blocksText (human : Bool) (blocks : Int) : Except Fault String := do
  let (amount, unit) := if human then withUnit blocks ["K", "M", "G"] else (blocks, "")
  return (← showNumber amount) ++ unit

/-- The blocks that a volume takes. An inode takes one, and contents take theirs together. -/
def blocksOf (volume : Volume) : Int :=
  volume.stats.inodes + (volume.stats.totalSize + 1023) / 1024

/-- The part of the disk that so many blocks are, in percent. -/
def percentOf (blocks : Int) : Int := max 1 (blocks * 100 / diskBlocks)

/-- Shows how full the disk is. -/
def df (args : List String) : Job := do
  let human := (splitFlags args).has 'h'
  let used := blocksOf (← get).machine.volume
  let row (name total used available percent place : String) : String :=
    s!"{Text.padRight 12 name} {Text.padLeft 10 total} {Text.padLeft 8 used} "
      ++ s!"{Text.padLeft 10 available} {percent} {place}"
  let header :=
    row "Filesystem" (if human then "Size" else "1K-blocks") "Used" "Available" "Use%" "Mounted on"
  let disk := row "vfs" (← blocksText human diskBlocks) (← blocksText human used)
    (← blocksText human (diskBlocks - used))
    s!"{Text.padLeft 3 (← showNumber (percentOf used))}%" "/"
  return .text (Text.unlines [header, disk])

/-- The simulated memory in units of 1024 bytes. -/
def totalMemory : Int := 8 * 1024 * 1024

/-- The simulated swap space in units of 1024 bytes. -/
def totalSwap : Int := 2 * 1024 * 1024

/-- Shows how much memory is in use. Each process takes a fixed amount. -/
def free (args : List String) : Job := do
  let divisor : Int := if (splitFlags args).has 'm' then 1024 else 1
  let used : Int := 65536 + 16384 * (← get).processes.length
  let cached := totalMemory / 8
  let unused := totalMemory - used - cached
  let row (name : String) (columns : List String) : String :=
    Text.padRight 7 name ++ String.join (columns.map (Text.padLeft 12))
  let numbers (columns : List Int) : List String :=
    columns.map fun amount => toString (amount / divisor)
  return .text (Text.unlines [
    row "" ["total", "used", "free", "shared", "buff/cache", "available"],
    row "Mem:" (numbers [totalMemory, used, unused, 0, cached, unused + cached]),
    row "Swap:" (numbers [totalSwap, 0, totalSwap])])

end PocketShell.Command
