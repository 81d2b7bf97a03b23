import DeploymentConfig.Host
import DeploymentConfig.Schema.Decode
import DeploymentConfig.Toml.Reader

/-!
# Settings

What the command line reads from its configuration file: how much to log, what
to do with names that no domain serves, and a snapshot of the catalog. Every
part may be missing, and so may the file.
-/

namespace DeploymentConfig

structure Settings where
  level : String
  unmatched : UnmatchedPolicy
  system : SystemInfo
  deriving DecidableEq

namespace Settings

def default : Settings :=
  ⟨"info", .reject, .empty⟩

/-- The schema of a section with one setting. -/
def sectionSchema {α : Type} (name : String) (default : α) (schema : Schema α) : Schema α :=
  .record (.defaulted name default schema .nil) (·, ()) (·.1)

def schema : Schema Settings :=
  .record (.defaulted "logging" default.level (sectionSchema "level" default.level .text) <|
      .defaulted "domains" default.unmatched
        (sectionSchema "unmatched" default.unmatched UnmatchedPolicy.schema) <|
      .defaulted "system" default.system SystemInfo.schema .nil)
    (fun s => (s.level, s.unmatched, s.system, ()))
    (fun (level, unmatched, system, _) => ⟨level, unmatched, system⟩)

/-- The settings that a text holds. -/
def ofText? (text : String) : Option Settings :=
  (Toml.ofText? text).bind (schema.decode .toml)

/-- What the user is told of a text that holds no settings. -/
def malformed : String :=
  "Failed to parse configuration file"

end Settings

end DeploymentConfig
