import DeploymentConfig.CommandLine.Invocation
import DeploymentConfig.Document
import DeploymentConfig.Json.Printer
import DeploymentConfig.Json.Reader
import DeploymentConfig.Port.Suggestion
import DeploymentConfig.Schema.Encode
import DeploymentConfig.Settings

/-!
# Running commands

A command is run on the files it names (`File`) and, for a suggested port, on
draws. The outcome is what it writes to its two outputs and the text of its
failure, if it fails; a command that fails writes nothing to the first.

The issues of a document are listed by field, fields in the order of code points
and the messages of a field in the order in which they were found.
-/

namespace DeploymentConfig.CommandLine

/-- What is found under a path. -/
inductive File where
  | missing
  /-- Something that cannot be read as text. -/
  | unreadable
  | text (content : String)
  deriving DecidableEq

structure Outcome where
  stdout : String
  stderr : String
  failure : Option String
  deriving DecidableEq

namespace Outcome

def success (stdout : String) : Outcome :=
  ⟨stdout, "", none⟩

def fail (failure : String) : Outcome :=
  ⟨"", "", some failure⟩

/-- A value is shown as JSON, one part a line. -/
def json (value : Option Json) : Outcome :=
  match value with
  | some value => success (value.pretty ++ "\n")
  | none => fail "cannot be written"

end Outcome

/-- The settings in a file. A missing file holds the default ones. -/
def loadSettings (path : String) : File → Except String Settings
  | .missing => .ok .default
  | .unreadable => .error ("Failed to read config file: " ++ path)
  | .text content =>
    match Settings.ofText? content with
    | some settings => .ok settings
    | none => .error Settings.malformed

/-- One line of a report. -/
def issueLine (field message : String) : String :=
  "  " ++ field ++ ": " ++ message ++ "\n"

/-- The lines of a report, by field. -/
def reportLines (r : Report) : List String :=
  (r.byField.mergeSort (·.1 ≤ ·.1)).flatMap fun (field, messages) =>
    messages.map (issueLine field)

/-- The outcome for a document that does not pass. -/
def refuse (path : String) (r : Report) : Outcome where
  stdout := ""
  stderr := String.join (reportLines r)
  failure := some (s!"{r.issues.length} validation issue(s) in " ++ path)

/-- The outcome for a document. -/
def checkDocument (settings : Settings) (path : String) (document : Document) : Outcome :=
  match document.submit settings.system with
  | .ok payload => .json (Payload.schema.encode payload)
  | .error (.invalid report) => refuse path report
  | .error fault => .fail fault.message

def check (settings : Settings) (path : String) : File → Outcome
  | .missing | .unreadable => .fail ("Failed to read document: " ++ path)
  | .text content =>
    match (Json.ofText? content).bind Document.schema.ofJson? with
    | some document => checkDocument settings path document
    | none => .fail ("Failed to parse document: " ++ path)

def resolve (settings : Settings) (fqdn : String) : Outcome :=
  match Host.resolve settings.unmatched settings.system.domains fqdn with
  | .ok host => .json (Host.schema.encode host)
  | .error fault => .fail fault.message

def suggestPort (range port : Draw) (settings : Settings) (protocol : Protocol) : Outcome :=
  .success (Text.decimal (Port.suggest range port protocol settings.system.ports).toInt ++ "\n")

def boolName (b : Bool) : String :=
  if b then "true" else "false"

def domainLine (d : AvailableDomain) : String :=
  "    " ++ d.domain ++ " (auth: " ++ boolName d.authAvailable ++ ", bound: "
    ++ boolName d.alreadyBound ++ ")\n"

/-- The line of the ports of a protocol, if it has any. -/
def portsLine (ranges : List PortRange) (protocol : Protocol) : String :=
  let text := Port.describe protocol ranges
  if text.isEmpty then "" else "  " ++ protocol.name ++ " ports: " ++ text ++ "\n"

def showSettings (settings : Settings) (path : String) : Outcome :=
  .success <|
    "Configuration OK: " ++ path ++ "\n"
      ++ "  Log level: " ++ settings.level ++ "\n"
      ++ "  Unmatched domains: " ++ settings.unmatched.label ++ "\n"
      ++ s!"  Domains: {settings.system.domains.length}\n"
      ++ String.join (settings.system.domains.map domainLine)
      ++ String.join ([Protocol.tcp, .udp].map (portsLine settings.system.ports))

/-- Runs a command. The settings are read first, and nothing is done if they cannot be. -/
def run (files : String → File) (range port : Draw) (i : Invocation) : Outcome :=
  match loadSettings i.settings (files i.settings) with
  | .error failure => .fail failure
  | .ok settings =>
    match i.command with
    | .check document => check settings document (files document)
    | .resolve fqdn => resolve settings fqdn
    | .suggestPort protocol => suggestPort range port settings protocol
    | .showSettings => showSettings settings i.settings

end DeploymentConfig.CommandLine
