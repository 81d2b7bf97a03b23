import DeploymentConfig.Website.Check
import DeploymentConfig.Website.Record

/-!
# Checking the websites of an application

Records that submit their form are checked one by one, under their path. Besides,
no two records that are kept may submit the same route.

The issues come in record order. A route that is used again is reported where
it is used again; the record that used it first is reported there too, when it
is used for the second time, and not when it is used more often. So each record
of a group of equal routes is reported once.
-/

namespace DeploymentConfig.WebsiteRecord

/-- The route of a record that is kept. -/
def route? (r : WebsiteRecord) : Option (String × String) :=
  r.submitted?.map (·.route)

/-- The path of a record in the set. -/
def path (index : Nat) : String :=
  itemPath "websites" index

/-- The issue of a record whose route is not its own. -/
def duplicateRoute (route : String × String) (index : Nat) : Issue :=
  ⟨path index ++ ".pathPrefix", .duplicateKey,
    route.1 ++ route.2 ++ " is used by more than one website"⟩

/-- The issues of a route at `index`, given the indices before it that have the same route. -/
def routeIssues (earlier : List Nat) (route : String × String) (index : Nat) : List Issue :=
  match earlier with
  | [] => []
  | [first] => [duplicateRoute route first, duplicateRoute route index]
  | _ => [duplicateRoute route index]

/-- The issues of a record itself. -/
def formIssues (domains : List AvailableDomain) (r : WebsiteRecord) (index : Nat) : List Issue :=
  if r.isSubmittedFromForm then (r.form.issues domains r.baseline).map (·.under (path index))
  else []

/-- The indices, from `start` on, of the records with a route. -/
def indicesOf (route : String × String) (records : List WebsiteRecord) : List Nat :=
  (records.zipIdx.filter (·.1.route? = some route)).map (·.2)

/-- The issues of the record at `index`, after the records `before` it. -/
def issuesAfter (domains : List AvailableDomain) (before : List WebsiteRecord) (r : WebsiteRecord)
    (index : Nat) : List Issue :=
  r.formIssues domains index ++
    match r.route? with
    | none => []
    | some route => routeIssues (indicesOf route before) route index

/-- The issues of all records, each judged after those before it. -/
def issues (domains : List AvailableDomain) (records : List WebsiteRecord) : List Issue :=
  records.zipIdx.flatMap fun (r, index) => r.issuesAfter domains (records.take index) index

def check (domains : List AvailableDomain) (records : List WebsiteRecord) : Except Report Unit :=
  Report.verdict (issues domains records)

end DeploymentConfig.WebsiteRecord
