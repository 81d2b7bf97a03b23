import DeploymentConfig.Issue
import DeploymentConfig.Text.Blank

/-!
# Required texts

The rule that several forms share: a text that must not be blank.
-/

namespace DeploymentConfig

/-- The issue of a required text that is blank. -/
def requireText (field value label : String) : List Issue :=
  if Text.isBlank value then [⟨field, .missingRequired, label ++ " is required"⟩] else []

end DeploymentConfig
