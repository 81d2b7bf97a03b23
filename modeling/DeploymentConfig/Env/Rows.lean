import DeploymentConfig.Env.Basic
import DeploymentConfig.Issue

/-!
# Checking variable rows

Every row of the user's needs a key of letters, digits and underscores. The last
row may be left empty: it is the place for a new variable, and is not submitted.
No key may occur twice, the platform's rows included.
-/

namespace DeploymentConfig

namespace EnvVar

/-- Whether a row has nothing in it. -/
def isUntouched (v : EnvVar) : Bool :=
  !v.system && v.key = "" && v.value = ""

def isKeyStart (c : Char) : Bool :=
  c.isAlpha || c = '_'

/-- Whether a key is a letter or an underscore, and then letters, digits and underscores, all of
ASCII. -/
def isKey (key : String) : Bool :=
  match key.toList with
  | [] => false
  | c :: cs => isKeyStart c && cs.all fun c => isKeyStart c || c.isDigit

/-- The path of the key of a row. -/
def keyPath (index : Nat) : String :=
  itemPath "envVars" index ++ ".key"

end EnvVar

namespace EnvRows

/-- Whether the row at `index` is the place for a new variable. -/
def isPlaceholder (rows : List EnvVar) (index : Nat) (v : EnvVar) : Bool :=
  index + 1 = rows.length && v.isUntouched

/-- The issue of the key of a row. -/
def keyIssues (v : EnvVar) (index : Nat) : List Issue :=
  if v.key = "" then [⟨EnvVar.keyPath index, .missingRequired, "Key is required"⟩]
  else if EnvVar.isKey v.key then []
  else [⟨EnvVar.keyPath index, .invalidFormat,
    "Key must contain only letters, digits and underscores, and not start with a digit"⟩]

/-- Whether a key is not empty and stands in more than one row. -/
def isRepeated (rows : List EnvVar) (key : String) : Bool :=
  key ≠ "" && 1 < (rows.filter (·.key = key)).length

/-- The indices of the rows whose key is repeated. -/
def repeated (rows : List EnvVar) : List Nat :=
  (rows.zipIdx.filter fun (v, _) => isRepeated rows v.key).map (·.2)

def repetitionIssues (rows : List EnvVar) : List Issue :=
  (rows.zipIdx.filter fun (v, _) => isRepeated rows v.key).map fun (v, index) =>
    ⟨EnvVar.keyPath index, .duplicateKey, "Duplicate key " ++ v.key⟩

/-- The issues of all rows: malformed keys first, then repeated ones. -/
def issues (rows : List EnvVar) : List Issue :=
  (rows.zipIdx.flatMap fun (v, index) =>
    if v.system || isPlaceholder rows index v then [] else keyIssues v index)
    ++ repetitionIssues rows

def check (rows : List EnvVar) : Except Report Unit :=
  Report.verdict (issues rows)

/-- The rows that are submitted. -/
def submitted (rows : List EnvVar) : List EnvVar :=
  (rows.zipIdx.filter fun (v, index) => !isPlaceholder rows index v).map (·.1)

/-- The rows that are submitted, if they pass. -/
def prepare (rows : List EnvVar) : Except Report (List EnvVar) :=
  (check rows).map fun _ => submitted rows

end EnvRows

end DeploymentConfig
