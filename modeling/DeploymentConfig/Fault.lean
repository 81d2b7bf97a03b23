import DeploymentConfig.Issue

/-!
# Faults

What an operation can fail with. Only `invalid` is for the user to mend, field
by field; the others name the one thing that was not there or did not work.
-/

namespace DeploymentConfig

/-- A key whose change the store refused. -/
structure KeyFailure where
  key : String
  reason : String
  deriving DecidableEq

def KeyFailure.text (f : KeyFailure) : String :=
  s!"{f.key} ({f.reason})"

inductive Fault where
  | invalid (report : Report)
  /-- A build configuration of a kind that is not known, and is never taken for a known one. -/
  | unknownVariant (tag : String)
  | domainNotFound (fqdn : String)
  | noDomains
  | recordNotFound (index : Nat)
  /-- Some changes were refused; the others were made. -/
  | partialFailure (failures : List KeyFailure)
  deriving DecidableEq

def Fault.message : Fault → String
  | invalid report => report.text
  | unknownVariant tag => "Unreachable build config variant: " ++ tag
  | domainNotFound fqdn => "No available domain matches " ++ fqdn
  | noDomains => "No domains are available"
  | recordNotFound index => s!"No website record at index {index}"
  | partialFailure failures =>
    s!"Failed to apply {failures.length} environment variable change(s): "
      ++ ", ".intercalate (failures.map KeyFailure.text)

end DeploymentConfig
