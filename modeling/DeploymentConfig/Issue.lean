import DeploymentConfig.Schema.Basic

/-!
# Issues and reports

An `Issue` is a problem that the user can mend, attached to the path of a field
such as `websites[0].subdomain`. A check is a list of issues, so that checks
compose by `++`; `Report.verdict` turns it into acceptance or a report.

`Report.byField` groups a report for display beside the inputs: each field that
occurs, once, with its messages in the order in which they were found.
-/

namespace DeploymentConfig

inductive IssueKind where
  /-- A required field is blank. -/
  | missingRequired
  /-- The deploy or the build axis is not chosen. -/
  | unresolvedVariant
  /-- A rule over several fields is violated. -/
  | crossFieldConstraint
  /-- A number is outside the allowed ranges. -/
  | outOfRange
  /-- A key is repeated within a collection. -/
  | duplicateKey
  /-- A value is present but malformed. -/
  | invalidFormat
  deriving DecidableEq

def IssueKind.name : IssueKind → String
  | missingRequired => "missing_required"
  | unresolvedVariant => "unresolved_variant"
  | crossFieldConstraint => "cross_field_constraint"
  | outOfRange => "out_of_range"
  | duplicateKey => "duplicate_key"
  | invalidFormat => "invalid_format"

def IssueKind.schema : Schema IssueKind :=
  .choice name [missingRequired, unresolvedVariant, crossFieldConstraint, outOfRange, duplicateKey,
    invalidFormat]

structure Issue where
  field : String
  kind : IssueKind
  message : String
  deriving DecidableEq

namespace Issue

def schema : Schema Issue :=
  .record (.required "field" .text <| .required "kind" IssueKind.schema <|
      .required "message" .text .nil)
    (fun i => (i.field, i.kind, i.message, ()))
    (fun (field, kind, message, _) => ⟨field, kind, message⟩)

/-- The same issue, of a part that lies at `path` in the whole. -/
def under (path : String) (i : Issue) : Issue :=
  { i with field := path ++ "." ++ i.field }

def text (i : Issue) : String :=
  i.field ++ ": " ++ i.message

end Issue

/-- The path of an item of a collection. -/
def itemPath (collection : String) (index : Nat) : String :=
  s!"{collection}[{index}]"

/-- The issue of an item of a collection. -/
theorem Issue.under_itemPath (collection : String) (index : Nat) (i : Issue) :
    i.under (itemPath collection index) =
      { i with field := s!"{collection}[{index}]." ++ i.field } := by
  simp only [under, itemPath, String.append_assoc]
  rfl

/-- A path tells the items of a collection apart. -/
theorem itemPath_inj {collection : String} {i j : Nat} :
    itemPath collection i = itemPath collection j ↔ i = j := by
  refine ⟨fun h => ?_, fun h => h ▸ rfl⟩
  have hs : toString i = toString j := by
    simpa only [itemPath, String.append_left_inj, String.append_right_inj] using h
  have hd : Nat.toDigits 10 i = Nat.toDigits 10 j := by
    rw [← Nat.toList_repr, ← Nat.toList_repr]
    exact congrArg String.toList hs
  calc
    i = Nat.ofDigitChars 10 (Nat.toDigits 10 i) 0 := Nat.ofDigitChars_ten_toDigits.symm
    _ = Nat.ofDigitChars 10 (Nat.toDigits 10 j) 0 := by rw [hd]
    _ = j := Nat.ofDigitChars_ten_toDigits

/-- The issues of a refused value, in the order in which they were found. -/
structure Report where
  issues : List Issue
  deriving DecidableEq

namespace Report

def schema : Schema Report :=
  .record (.required "issues" (.list Issue.schema) .nil) (fun r => (r.issues, ()))
    (fun (issues, _) => ⟨issues⟩)

def hasField (r : Report) (field : String) : Bool :=
  r.issues.any (·.field = field)

def has (r : Report) (field : String) (kind : IssueKind) : Bool :=
  r.issues.any fun i => i.field = field && i.kind = kind

/-- The messages of each field, fields in the order of their first issue. -/
def byField (r : Report) : List (String × List String) :=
  (r.issues.map Issue.field).eraseDups.map fun field =>
    (field, (r.issues.filter (·.field = field)).map Issue.message)

/-- One issue speaks for itself; several are counted by field. -/
def text (r : Report) : String :=
  match r.issues with
  | [issue] => issue.text
  | _ => s!"Validation failed for {r.byField.length} fields"

/-- Accepts if nothing was found. -/
def verdict (issues : List Issue) : Except Report Unit :=
  if issues.isEmpty then .ok () else .error ⟨issues⟩

theorem verdict_eq_ok_iff {issues : List Issue} : verdict issues = .ok () ↔ issues = [] := by
  cases issues <;> simp [verdict]

theorem verdict_eq_error_iff {issues : List Issue} {r : Report} :
    verdict issues = .error r ↔ issues ≠ [] ∧ r = ⟨issues⟩ := by
  cases issues <;> simp [verdict, eq_comm]

end Report

end DeploymentConfig
