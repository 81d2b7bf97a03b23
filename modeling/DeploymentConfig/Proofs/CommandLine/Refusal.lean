import DeploymentConfig.CommandLine.Run
import DeploymentConfig.Proofs.Document.Sections
import DeploymentConfig.Proofs.Issue.Grouping
import Mathlib.Data.String.Basic

/-!
# Refused documents

A document that does not pass is answered with a line for each of its issues and
with their number, and with nothing of what it would have submitted (`Refuses`).

The lines are made from the groups of the report, in the order of the fields. They
are nevertheless those of the issues in the order of the fields, issues of one field
as they were found (`reportLines_eq`), and it does not matter in which order the
groups were to begin with (`reportLines_eq_of_perm`). `refusal_exact` says this of
a run of the whole command.
-/

namespace DeploymentConfig.CommandLine

/-! ## Lines -/

/-- The issues of a report in the order of the fields. -/
def sortedIssues (r : Report) : List Issue :=
  byGroup Issue.field (r.fields.mergeSort (· ≤ ·)) r.issues

theorem sortsBy_sortedIssues (r : Report) : SortsBy Issue.field r.issues (sortedIssues r) := by
  have hp : (r.fields.mergeSort (· ≤ ·)).Perm r.fields := List.mergeSort_perm _ _
  refine sortsBy_byGroup (hp.nodup_iff.mpr (nodup_eraseDups _)) (pairwise_mergeSort_key id _) ?_
  intro issue hi
  exact hp.mem_iff.mpr (Report.mem_fields_iff.mpr ⟨issue, hi, rfl⟩)

/-- The lines of a report are those of its issues in order, although they are made by group. -/
theorem reportLines_eq (r : Report) :
    reportLines r = (sortedIssues r).map fun issue => issueLine issue.field issue.message := by
  have hgroup : ∀ field, ((r.issues.filter (·.field = field)).map (·.message)).map
      (issueLine field) = (r.issues.filter (·.field = field)).map
        fun issue => issueLine issue.field issue.message := by
    intro field
    rw [List.map_map]
    refine List.map_congr_left fun issue hi => ?_
    rw [Function.comp_apply, of_decide_eq_true (List.mem_filter.mp hi).2]
  have hsort := List.map_mergeSort (r := (· ≤ ·)) (s := (·.1 ≤ ·.1)) (f := r.group) (l := r.fields)
    fun _ _ _ _ => rfl
  rw [reportLines, r.byField_eq, ← hsort, List.flatMap_map, sortedIssues, byGroup,
    List.map_flatMap]
  exact List.flatMap_congr fun field _ => hgroup field

/-- Any arrangement of the groups in the order of the fields gives the same lines. -/
theorem reportLines_eq_of_perm {r : Report} {groups : List (String × List String)}
    (hp : groups.Perm r.byField) (hs : groups.Pairwise (·.1 ≤ ·.1)) :
    (groups.flatMap fun g => g.2.map (issueLine g.1)) = reportLines r := by
  have hsorted := List.mergeSort_perm r.byField (·.1 ≤ ·.1)
  have heq : groups = r.byField.mergeSort (·.1 ≤ ·.1) := by
    refine List.Perm.eq_of_pairwise ?_ hs (pairwise_mergeSort_key Prod.fst _)
      (hp.trans hsorted.symm)
    intro a b ha hb hab hba
    -- Groups of the same field are the same group.
    exact List.inj_on_of_nodup_map r.nodup_byField (hp.mem_iff.mp ha) (hsorted.mem_iff.mp hb)
      (le_antisymm hab hba)
  rw [heq]
  rfl

/-! ## Runs -/

/-- Whether an invocation is to check a document that it finds, with settings that it finds. -/
structure Finds (files : String → File) (i : Invocation) (settings : Settings) (path : String)
    (d : Document) : Prop where
  command : i.command = .check path
  settings : loadSettings i.settings (files i.settings) = .ok settings
  document : ∃ content, files path = .text content ∧
    (Json.ofText? content).bind Document.schema.ofJson? = some d

/-- Whether a document is answered with its issues, sorted by field, and with no payload. -/
structure Outcome.Refuses (o : Outcome) (path : String) (issues : List Issue) : Prop where
  stdout : o.stdout = ""
  stderr : ∃ sorted, (∀ ys, SortsBy Issue.field issues ys ↔ ys = sorted) ∧
    o.stderr = String.join
      (sorted.map fun issue => "  " ++ issue.field ++ ": " ++ issue.message ++ "\n")
  failure : o.failure = some (s!"{issues.length} validation issue(s) in " ++ path)

theorem refuses_refuse (path : String) (r : Report) : (refuse path r).Refuses path r.issues where
  stdout := rfl
  stderr := by
    refine ⟨sortedIssues r, fun ys => ⟨fun h => h.unique (sortsBy_sortedIssues r), ?_⟩, ?_⟩
    · rintro rfl
      exact sortsBy_sortedIssues r
    · exact congrArg String.join (reportLines_eq r)
  failure := rfl

section

variable {files : String → File} {range port : Draw} {i : Invocation} {settings : Settings}
  {path : String} {d : Document}

theorem Finds.run_eq (h : Finds files i settings path d) :
    run files range port i = checkDocument settings path d := by
  obtain ⟨content, hf, hd⟩ := h.document
  simp only [run, h.settings, h.command, check, hf, hd]

theorem refuses_checkDocument {issues : List Issue}
    (h : d.submit settings.system = .error (.invalid ⟨issues⟩)) :
    (checkDocument settings path d).Refuses path issues := by
  rw [checkDocument, h]
  exact refuses_refuse path ⟨issues⟩

end

/-- A report is grouped by field without loss, and counts its fields once; and a document that does
not pass is answered with all of its issues, sorted by field, with their number, and with no
payload. -/
theorem refusal_exact :
    (∀ r : Report,
      (r.byField.map (·.1)).Nodup ∧
      (∀ field messages, (field, messages) ∈ r.byField ↔
        (∃ issue ∈ r.issues, issue.field = field) ∧
          messages = (r.issues.filter (·.field = field)).map (·.message)) ∧
      (r.byField.map (·.2.length)).sum = r.issues.length ∧
      (∀ issue, r.issues = [issue] → r.text = issue.field ++ ": " ++ issue.message) ∧
      (r.issues.length ≠ 1 →
        r.text = s!"Validation failed for {(r.issues.map (·.field)).toFinset.card} fields") ∧
      ∀ groups : List (String × List String), groups.Perm r.byField →
        groups.Pairwise (·.1 ≤ ·.1) →
          (groups.flatMap fun g => g.2.map (issueLine g.1)) = reportLines r) ∧
    ∀ {settings : Settings} {path : String} {d : Document} {fault : Fault},
      d.submit settings.system = .error fault →
        ∃ issues, issues ≠ [] ∧ fault = .invalid ⟨issues⟩ ∧
          (checkDocument settings path d).Refuses path issues ∧
          ∀ (files : String → File) (range port : Draw) (i : Invocation),
            Finds files i settings path d → (run files range port i).Refuses path issues := by
  constructor
  · rintro ⟨issues⟩
    refine ⟨Report.nodup_byField _, fun field messages => Report.mem_byField_iff,
      Report.sum_byField _, ?_, Report.text_of_length_ne_one, fun groups => reportLines_eq_of_perm⟩
    rintro issue rfl
    rfl
  · intro settings path d fault h
    obtain ⟨rfl, hn⟩ := Document.fault_of_submit_eq_error h
    refine ⟨_, hn, rfl, refuses_checkDocument h, fun files range port i hf => ?_⟩
    rw [hf.run_eq]
    exact refuses_checkDocument h

/-- A document without a name, of which nothing is chosen, with one bad key in two rows. -/
def unnamed : Document :=
  ⟨"", none, .empty, [], [], [⟨"1", "", true⟩, ⟨"1", "", false⟩], []⟩

def unnamedText : String :=
  "\x7b\"name\":\"\",\"envVars\":[\x7b\"key\":\"1\",\"value\":\"\",\"system\":true\x7d,"
    ++ "\x7b\"key\":\"1\",\"value\":\"\"\x7d]\x7d"

def unnamedFiles (path : String) : File :=
  if path = "app.json" then .text unnamedText else .missing

def checkUnnamed : Invocation :=
  ⟨defaultSettings, none, .check "app.json"⟩

theorem finds_unnamed : Finds unnamedFiles checkUnnamed .default "app.json" unnamed where
  command := rfl
  settings := rfl
  document := by
    have hj : Json.ofText? unnamedText = some (.object [("name", .string ""),
        ("envVars", .array [
          .object [("key", .string "1"), ("value", .string ""), ("system", .bool true)],
          .object [("key", .string "1"), ("value", .string "")]])]) := by
      rfl
    refine ⟨unnamedText, rfl, Option.bind_eq_some_iff.mpr ⟨_, hj, ?_⟩⟩
    simp [Schema.ofJson?, Document.schema, EnvVar.schema, Schema.decode, Fields.decode,
      Fields.find?, unnamed]

/-- The issues of the document, as they are found. -/
def unnamedIssues : List Issue :=
  [⟨"name", .missingRequired, "Name is required"⟩,
    ⟨"config.deployConfig", .unresolvedVariant, "Select deploy type"⟩,
    ⟨"config.buildConfig", .unresolvedVariant, "Select build type"⟩,
    ⟨"envVars[1].key", .invalidFormat,
      "Key must contain only letters, digits and underscores, and not start with a digit"⟩,
    ⟨"envVars[0].key", .duplicateKey, "Duplicate key 1"⟩,
    ⟨"envVars[1].key", .duplicateKey, "Duplicate key 1"⟩]

theorem refusal_exact_unnamed :
    Finds unnamedFiles checkUnnamed .default "app.json" unnamed ∧
      unnamed.submit Settings.default.system = .error (.invalid ⟨unnamedIssues⟩) ∧
      (run unnamedFiles (fun _ => 0) (fun _ => 0) checkUnnamed).stderr = String.join
        ["  config.buildConfig: Select build type\n",
          "  config.deployConfig: Select deploy type\n",
          "  envVars[0].key: Duplicate key 1\n",
          "  envVars[1].key: Key must contain only letters, digits and underscores, "
            ++ "and not start with a digit\n",
          "  envVars[1].key: Duplicate key 1\n",
          "  name: Name is required\n"] := by
  have hs : unnamed.submit Settings.default.system = .error (.invalid ⟨unnamedIssues⟩) := by rfl
  refine ⟨finds_unnamed, hs, ?_⟩
  obtain ⟨issues, -, he, -, hrun⟩ := refusal_exact.2 hs
  have hr := hrun unnamedFiles (fun _ => 0) (fun _ => 0) checkUnnamed finds_unnamed
  obtain ⟨sorted, hu, hl⟩ := hr.stderr
  have hb : SortsBy Issue.field unnamedIssues (byGroup Issue.field ["config.buildConfig",
      "config.deployConfig", "envVars[0].key", "envVars[1].key", "name"] unnamedIssues) :=
    sortsBy_byGroup (by decide) (by decide) (by decide)
  obtain rfl : unnamedIssues = issues := congrArg Report.issues (Fault.invalid.inj he)
  rw [hl, ← (hu _).mp hb]
  rfl

end DeploymentConfig.CommandLine
