import DeploymentConfig.Website.Basic

/-!
# Edit records

A website under edit is a record: its form, the value last known to be stored
(the baseline), and a state that events move on (`EditState.next?`). A failed
submission takes an edited record back to `noChange` but keeps its form, so what
is submitted goes by the effective state, which looks at the value again.
-/

namespace DeploymentConfig

inductive EditState where
  /-- Stored, and not touched. -/
  | noChange
  /-- Stored, and edited since the last submission. -/
  | readyToChange
  /-- Stored, and to be removed. -/
  | readyToDelete
  /-- Not stored yet. -/
  | added
  deriving DecidableEq

inductive EditEvent where
  | edit
  | delete
  | submitSucceeded
  | submitFailed
  deriving DecidableEq

namespace EditState

def name : EditState → String
  | noChange => "no_change"
  | readyToChange => "ready_to_change"
  | readyToDelete => "ready_to_delete"
  | added => "added"

def all : List EditState :=
  [noChange, readyToChange, readyToDelete, added]

/-- The state after an event, none when the record leaves the working set. -/
def next? : EditState → EditEvent → Option EditState
  | noChange, .edit | readyToChange, .edit => some readyToChange
  | state, .edit => some state
  | added, .delete => none
  | _, .delete => some readyToDelete
  | readyToDelete, .submitSucceeded => none
  | _, .submitSucceeded => some noChange
  | readyToChange, .submitFailed => some noChange
  | state, .submitFailed => some state

end EditState

structure WebsiteRecord where
  state : EditState
  form : WebsiteForm
  /-- The value last known to be stored. -/
  baseline : Option WebsiteSettings
  /-- The identity of a website that was loaded. -/
  id : Option String
  deriving DecidableEq

namespace WebsiteRecord

/-- The record of a stored website. -/
def stored (w : Website) (form : WebsiteForm) : WebsiteRecord :=
  ⟨.noChange, form, some w.toWebsiteSettings, some w.id⟩

/-- The record of a website that is not stored yet. -/
def added (form : WebsiteForm) : WebsiteRecord :=
  ⟨.added, form, none, none⟩

/-- Whether the form differs from the baseline. -/
def isDirty (r : WebsiteRecord) : Bool :=
  r.baseline ≠ some r.form.settings

/-- The state by the value: a stored record that is not to be removed is changed if it is dirty. -/
def effectiveState (r : WebsiteRecord) : EditState :=
  match r.state, r.baseline with
  | .noChange, some _ | .readyToChange, some _ =>
    if r.isDirty then .readyToChange else .noChange
  | state, _ => state

/-- Whether a submission sends the form, and not a value that is stored already. -/
def isSubmittedFromForm (r : WebsiteRecord) : Bool :=
  r.effectiveState = .readyToChange || r.effectiveState = .added

/-- The value that the record contributes to a submission. -/
def submitted? (r : WebsiteRecord) : Option WebsiteSettings :=
  match r.effectiveState with
  | .readyToDelete => none
  | .noChange => some (r.baseline.getD r.form.settings)
  | .readyToChange | .added => some r.form.settings

/-- The record after an event, none when it leaves the working set. -/
def next? (r : WebsiteRecord) (event : EditEvent) : Option WebsiteRecord :=
  (r.state.next? event).map fun state => { r with state }

end WebsiteRecord

end DeploymentConfig
