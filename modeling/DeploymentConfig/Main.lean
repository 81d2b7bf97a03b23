import DeploymentConfig.CommandLine.Run

/-!
# The program

Reads the files that the arguments name, runs the command and shows its outcome.
The exit code is 0 on success and for help, 1 for a command that fails, and 2
for arguments that make no command.
-/

namespace DeploymentConfig.CommandLine

def usage : String :=
  String.join
    ["Usage: deployment-config [-c FILE] [-l LEVEL] COMMAND\n\n",
      "Commands:\n",
      "  check FILE               Check a document and show what it submits\n",
      "  resolve FQDN             Split a name into subdomain and domain\n",
      "  suggest-port [tcp|udp]   Suggest an internet port\n",
      "  config check             Check the settings and show them\n"]

/-- Why the arguments make no command. -/
def UsageProblem.message : UsageProblem → String
  | help => usage
  | version => "deployment-config 0.1.0\n"
  | nothingGiven => usage
  | missingSubcommand => "a command is missing\n\n" ++ usage
  | unknownSubcommand => "there is no such command\n\n" ++ usage
  | unknownArgument => "there is an argument too many\n\n" ++ usage
  | missingArgument => "an argument is missing\n\n" ++ usage
  | repeatedArgument => "an option is given twice\n\n" ++ usage
  | emptyValue => "an option has no value\n\n" ++ usage
  | refusedValue => "the value of an argument is refused\n\n" ++ usage
  | unwantedValue => "a value is given to an option that takes none\n\n" ++ usage

/-- Shows why the arguments make no command. -/
def explain (problem : UsageProblem) : IO UInt32 := do
  if problem = .help ∨ problem = .version then
    IO.print problem.message
    return 0
  else
    IO.eprint problem.message
    return 2

/-- Whether a path leads to something on disk. -/
def isPresent (path : String) : IO Bool := do
  try
    let _ ← IO.FS.realPath path
    return true
  catch _ => return false

/-- What is found under a path on disk. -/
def readFile (path : String) : IO File := do
  if ← isPresent path then
    try
      let bytes ← IO.FS.readBinFile path
      return (String.fromUTF8? bytes).elim .unreadable .text
    catch _ => return .unreadable
  else return .missing

/-- A draw by a number that was chosen at random. -/
def drawBy (seed : Nat) : Draw :=
  fun n => .ofNat (n + 1) seed

/-- Runs a command on the files on disk. -/
def perform (i : Invocation) : IO UInt32 := do
  let settings ← readFile i.settings
  let document ← match i.command with
    | .check path => readFile path
    | _ => pure .missing
  let range ← IO.rand 0 (1 <<< 62)
  let port ← IO.rand 0 (1 <<< 62)
  let files (path : String) := if path = i.settings then settings else document
  let outcome := run files (drawBy range) (drawBy port) i
  IO.print outcome.stdout
  IO.eprint outcome.stderr
  match outcome.failure with
  | none => return 0
  | some failure =>
    IO.eprintln ("Error: " ++ failure)
    return 1

end DeploymentConfig.CommandLine

open DeploymentConfig.CommandLine in
def main (arguments : List String) : IO UInt32 :=
  match Invocation.ofArguments arguments with
  | .ok invocation => perform invocation
  | .error problem => explain problem
