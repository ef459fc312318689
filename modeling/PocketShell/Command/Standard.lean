import PocketShell.Command.Awk
import PocketShell.Command.Files
import PocketShell.Command.Find
import PocketShell.Command.Sed
import PocketShell.Command.Seq
import PocketShell.Command.Status

/-!
The standard commands by name, and running a command. Two commands run another one: `sudo` as root,
and `xargs` with more arguments. Both take away an argument or a word of the input, so that the
number of these bounds how deep they nest, unless a name for printing runs `xargs` again.
-/
namespace PocketShell.Command

open Shell

/-- A scripted command: the call is told before it answers or gives up. -/
def runScript (script : Script) (args : List String) (stdin : Option String) : Job := do
  Run.tell (.called script.name args stdin (← Run.user))
  match script.gives? with
  | some reason => throw (.failed reason)
  | none => return script.outcome

/-- The command of a registered name. -/
def named? (name : String) : Run Command (Option Command) := do
  return (← read).registry.bind (·.get? name)

/-- Runs a command as root. -/
def asRoot (call : Command → Handler) (args : List String) (stdin : Option String) : Job := do
  match args with
  | [] => return .fail "sudo" "usage: sudo COMMAND [ARG...]"
  | name :: rest => match ← named? name with
    | none => return .failWith 127 "sudo" s!"{name}: command not found"
    | some command =>
      ReaderT.adapt (fun caller => { caller with user := rootUser }) (call command rest stdin)

/-- Runs a command with the words of the standard input behind its arguments. -/
def xargs (call : Command → Handler) (args : List String) (stdin : Option String) : Job := do
  let (name, rest) := match args with
    | [] => ("echo", [])
    | name :: rest => (name, rest)
  match ← named? name with
  | none => return .failWith 127 "xargs" s!"{name}: No such file or directory"
  | some command => call command (rest ++ Text.words (stdin.getD "")) none

/-- Runs a standard command; `call` runs the command that it runs in turn. -/
def runBuiltin (call : Command → Handler) (standard : Builtin) (args : List String)
    (stdin : Option String) : Job :=
  match standard with
  | .pwd => pwd
  | .cd => cd args
  | .ls => ls args
  | .mkdir => mkdir args
  | .touch => touch args
  | .cat => cat args stdin
  | .rm => rm args
  | .cp => cp args
  | .mv => mv args
  | .ln => ln args
  | .chmod => chmod args
  | .chown => chown args
  | .umask => umask args
  | .stat => stat args
  | .file => file args
  | .clear => clear
  | .echo => echo args
  | .history => history args
  | .help => help args
  | .asRoot => asRoot call args stdin
  | .exportNames => exportNames args
  | .unset => unset args
  | .env => env
  | .whoami => whoami
  | .identity => identity args
  | .groups => groups args
  | .hostname => hostname
  | .which => which args
  | .describe => describe args
  | .succeed => succeed
  | .giveUp => giveUp
  | .basename => basename args
  | .dirname => dirname args
  | .readInto => readInto args stdin
  | .grep => grep args stdin
  | .wc => wc args stdin
  | .head => head args stdin
  | .tail => tail args stdin
  | .sort => sort args stdin
  | .uniq => uniq args stdin
  | .cut => cut args stdin
  | .tee => tee args stdin
  | .sed => sed args stdin
  | .awk => awk args stdin
  | .xargs => xargs call args stdin
  | .seq => seq args
  | .find => find args
  | .uname => uname args
  | .date => date args
  | .uptime => uptime
  | .ps => ps
  | .kill => kill args
  | .df => df args
  | .free => free args

/-- Runs a command; `depth` bounds how deep commands run commands. -/
def runWithin : (depth : Nat) → Command → Handler
  | _, .scripted script, args, stdin => runScript script args stdin
  | 0, .builtin _, _, _ => throw .endless
  | depth + 1, .builtin standard, args, stdin => runBuiltin (runWithin depth) standard args stdin

/-- Runs a command. -/
def run (command : Command) (args : List String) (stdin : Option String) : Job :=
  runWithin (args.length + (Text.words (stdin.getD "")).length + 2) command args stdin

/-- The standard commands with their names and help texts, family after family. -/
def standardCommands : List (String × Builtin × String) := [
  ("pwd", .pwd, "Print working directory"),
  ("cd", .cd, "Change directory"),
  ("ls", .ls, "List directory contents (-a, -l)"),
  ("mkdir", .mkdir, "Create directories (-p)"),
  ("touch", .touch, "Create empty files or update timestamps"),
  ("cat", .cat, "Print files"),
  ("rm", .rm, "Remove files (-r, -f)"),
  ("cp", .cp, "Copy files (-r)"),
  ("mv", .mv, "Move or rename files"),
  ("ln", .ln, "Create symbolic links (-s)"),
  ("chmod", .chmod, "Change permissions"),
  ("chown", .chown, "Change owner (root only)"),
  ("umask", .umask, "Show or set the file creation mask"),
  ("stat", .stat, "Display file status"),
  ("file", .file, "Determine file type"),
  ("clear", .clear, "Clear the screen"),
  ("echo", .echo, "Print arguments"),
  ("history", .history, "Show command history"),
  ("help", .help, "List available commands"),
  ("sudo", .asRoot, "Run a command as root"),
  ("export", .exportNames, "Set environment variables"),
  ("unset", .unset, "Remove environment variables"),
  ("env", .env, "Print the environment"),
  ("whoami", .whoami, "Display current user"),
  ("id", .identity, "Display user and group IDs"),
  ("groups", .groups, "Display group memberships"),
  ("hostname", .hostname, "Display the host name"),
  ("which", .which, "Locate a command"),
  ("type", .describe, "Describe a command"),
  ("true", .succeed, "Succeed"),
  ("false", .giveUp, "Fail"),
  ("basename", .basename, "Strip directory from a path"),
  ("dirname", .dirname, "Strip last component from a path"),
  ("read", .readInto, "Read a line into variables"),
  ("grep", .grep, "Print lines matching a pattern (-i, -v, -n, -c)"),
  ("wc", .wc, "Count lines, words and bytes (-l, -w, -c)"),
  ("head", .head, "Print the first lines (-n N)"),
  ("tail", .tail, "Print the last lines (-n N)"),
  ("sort", .sort, "Sort lines (-r, -n, -u)"),
  ("uniq", .uniq, "Collapse adjacent duplicates (-c, -d)"),
  ("cut", .cut, "Select fields (-d DELIM -f LIST)"),
  ("tee", .tee, "Copy stdin to files and stdout (-a)"),
  ("sed", .sed, "Substitute text (s/pattern/replacement/g)"),
  ("awk", .awk, "Print fields (\x7bprint $N\x7d, -F SEP)"),
  ("xargs", .xargs, "Build a command from stdin"),
  ("seq", .seq, "Print a sequence of numbers"),
  ("find", .find, "Search a directory tree (-name, -type)"),
  ("uname", .uname, "Display system information (-a)"),
  ("date", .date, "Display date and time"),
  ("uptime", .uptime, "Display session uptime"),
  ("ps", .ps, "List processes"),
  ("kill", .kill, "Terminate a process"),
  ("df", .df, "Display filesystem usage"),
  ("free", .free, "Display memory usage")]

/-- The registry of the standard commands. -/
def standardRegistry : Registry Command :=
  standardCommands.map fun (name, standard, help) => ⟨name, .builtin standard, help⟩

end PocketShell.Command
