import DeploymentConfig.CommandLine.Argument
import DeploymentConfig.Port.Basic

/-!
# Invocations

The commands that the program knows, and how they are given on the command line:
`check FILE`, `resolve FQDN`, `suggest-port [tcp|udp]` and `config check`, all
with the settings file and the log level as options in front.
-/

namespace DeploymentConfig.CommandLine

inductive Command where
  /-- Check a document and show what it submits. -/
  | check (document : String)
  /-- Split a name into subdomain and domain. -/
  | resolve (fqdn : String)
  /-- Suggest an internet port. -/
  | suggestPort (protocol : Protocol)
  /-- Show the settings. -/
  | showSettings
  deriving DecidableEq

structure Invocation where
  /-- The settings file. -/
  settings : String
  /-- The level to log at, in place of that of the settings. -/
  logLevel : Option String
  command : Command
  deriving DecidableEq

/-- The settings file, unless another one is named. -/
def defaultSettings : String :=
  "showcase.toml"

/-- Refuses the empty path. -/
def refusesPath (value : String) : Option UsageProblem :=
  if value.isEmpty then some .emptyValue else none

def refusesProtocol (value : String) : Option UsageProblem :=
  if (Protocol.ofText? value).isSome then none else some .refusedValue

/-- A command with one positional argument. -/
def leaf (name : String) (argument : Argument) : Level :=
  .mk name [] false (some argument) []

def checkLevel : Level :=
  leaf "check" ⟨"document", none, refusesPath, true⟩

def resolveLevel : Level :=
  leaf "resolve" ⟨"fqdn", none, fun _ => none, true⟩

def suggestPortLevel : Level :=
  leaf "suggest-port" ⟨"protocol", none, refusesProtocol, false⟩

def configLevel : Level :=
  .mk "config" [] false none [.mk "check" [] false none []]

/-- The whole command line. -/
def program : Level :=
  .mk "deployment-config"
    [⟨"config", some 'c', refusesPath, false⟩, ⟨"log-level", some 'l', fun _ => none, false⟩]
    true none [checkLevel, resolveLevel, suggestPortLevel, configLevel]

/-- The command that has been read. -/
def Reading.command? (r : Reading) : Option Command :=
  match r.path with
  | ["check"] => (r.value? "document").map .check
  | ["resolve"] => (r.value? "fqdn").map .resolve
  | ["suggest-port"] =>
    match r.value? "protocol" with
    | none => some (.suggestPort .tcp)
    | some name => (Protocol.ofText? name).map .suggestPort
  | ["config", "check"] => some .showSettings
  | _ => none

def Invocation.ofArguments (arguments : List String) : Except UsageProblem Invocation := do
  let r ← program.read arguments
  match r.command? with
  | some command =>
    .ok ⟨(r.value? "config").getD defaultSettings, r.value? "log-level", command⟩
  | none => .error .missingSubcommand

end DeploymentConfig.CommandLine
