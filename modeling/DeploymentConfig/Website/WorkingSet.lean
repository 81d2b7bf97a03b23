import DeploymentConfig.Website.Route

/-!
# Working sets

The websites of an application while they are edited. A submission replaces
them all: it sends every website that is kept, edited or not, and the platform
prunes the others. Success makes what was sent the new baseline; failure keeps
every form for the next attempt.

`Step` lists what can happen to a working set, and `WorkingSet.run` makes it
happen.
-/

namespace DeploymentConfig

structure WorkingSet where
  records : List WebsiteRecord
  deriving DecidableEq

namespace WorkingSet

def empty : WorkingSet :=
  ⟨[]⟩

/-- Starts editing stored websites. -/
def ofWebsites (policy : UnmatchedPolicy) (domains : List AvailableDomain)
    (websites : List Website) : Except Fault WorkingSet :=
  (websites.mapM fun w : Website => (w.form policy domains).map (.stored w)).map WorkingSet.mk

/-- Appends a new website; its index is the number of records before. -/
def add (form : WebsiteForm) (s : WorkingSet) : WorkingSet :=
  ⟨s.records ++ [.added form]⟩

/-- The first domain that can take another website. -/
def freeDomain? (domains : List AvailableDomain) : Option AvailableDomain :=
  domains.find? fun d => d.isWildcard || !d.alreadyBound

/-- Appends a new website on the first domain that can take one. -/
def addDefault (domains : List AvailableDomain) (s : WorkingSet) : Except Fault WorkingSet :=
  match freeDomain? domains with
  | some d => .ok (s.add (.new d.domain))
  | none => .error .noDomains

/-- Changes the form of a record. -/
def edit (index : Nat) (change : WebsiteForm → WebsiteForm) (s : WorkingSet) :
    Except Fault WorkingSet :=
  match s.records[index]? with
  | none => .error (.recordNotFound index)
  | some r =>
    .ok ⟨s.records.set index
      { r with form := change r.form, state := (r.state.next? .edit).getD r.state }⟩

/-- Marks a record for removal. One that is not stored is removed at once, and those behind it move
up. -/
def delete (index : Nat) (s : WorkingSet) : Except Fault WorkingSet :=
  match s.records[index]? with
  | none => .error (.recordNotFound index)
  | some r =>
    match r.next? .delete with
    | some r => .ok ⟨s.records.set index r⟩
    | none => .ok ⟨s.records.eraseIdx index⟩

/-- Whether a submission would change anything. -/
def hasChanges (s : WorkingSet) : Bool :=
  s.records.any (·.effectiveState ≠ .noChange)

/-- What a submission sends. -/
def payload (s : WorkingSet) : List WebsiteSettings :=
  s.records.filterMap (·.submitted?)

/-- What a submission sends, if every record passes. -/
def prepare (domains : List AvailableDomain) (s : WorkingSet) :
    Except Fault (List WebsiteSettings) :=
  match WebsiteRecord.check domains s.records with
  | .ok () => .ok s.payload
  | .error report => .error (.invalid report)

/-- The platform has accepted the submission: what was sent is stored. -/
def submitSucceeded (s : WorkingSet) : WorkingSet :=
  ⟨s.records.filterMap fun r =>
    { r with baseline := some r.form.settings : WebsiteRecord }.next? .submitSucceeded⟩

/-- The platform has refused the submission: edited records are as if untouched, but keep their
forms. -/
def submitFailed (s : WorkingSet) : WorkingSet :=
  ⟨s.records.filterMap (·.next? .submitFailed)⟩

/-- What can happen to a working set. -/
inductive Step where
  | add (form : WebsiteForm)
  | addDefault (domains : List AvailableDomain)
  | edit (index : Nat) (change : WebsiteForm → WebsiteForm)
  | delete (index : Nat)
  | submitSucceeded
  | submitFailed

/-- The end of a submission. -/
def Step.finishSubmit (accepted : Bool) : Step :=
  if accepted then .submitSucceeded else .submitFailed

/-- What a step answers: the index of a new record, if it makes one, or a fault. -/
abbrev Answer := Except Fault (Option Nat)

/-- The set after an operation, and what it answers. A failed operation leaves the set as it was. -/
def commit (s : WorkingSet) (index : Option Nat) : Except Fault WorkingSet → Answer × WorkingSet
  | .ok t => (.ok index, t)
  | .error fault => (.error fault, s)

def step (s : WorkingSet) : Step → Answer × WorkingSet
  | .add form => (.ok (some s.records.length), s.add form)
  | .addDefault domains => s.commit (some s.records.length) (s.addDefault domains)
  | .edit index change => s.commit none (s.edit index change)
  | .delete index => s.commit none (s.delete index)
  | .submitSucceeded => (.ok none, s.submitSucceeded)
  | .submitFailed => (.ok none, s.submitFailed)

/-- The set after a run of steps. -/
def run (s : WorkingSet) (steps : List Step) : WorkingSet :=
  steps.foldl (fun s step => (s.step step).2) s

end WorkingSet

end DeploymentConfig
