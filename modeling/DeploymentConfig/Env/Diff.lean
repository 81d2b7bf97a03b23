import DeploymentConfig.Env.Map

/-!
# Variable diffs

The changes that lead from one map to another: keys to add, to update and to
delete, each in increasing order. As operations, the upserts come first, those of
added keys before those of updated ones, and then the deletions.
-/

namespace DeploymentConfig

@[ext]
structure EnvDiff where
  added : List String
  deleted : List String
  updated : List String
  deriving DecidableEq

namespace EnvMap

/-- The diff from `old` to `new`. -/
def diff (old new : EnvMap) : EnvDiff where
  added := (new.entries.filter fun e => (old.get? e.1).isNone).map (·.1)
  deleted := old.keys.filter fun key => (new.get? key).isNone
  updated := (new.entries.filter fun e => (old.get? e.1).any (· ≠ e.2)).map (·.1)

/-- Does to a map what an operation says. -/
def apply (m : EnvMap) : EnvOperation → EnvMap
  | .upsert key value => m.insert key value
  | .delete key => m.erase key

end EnvMap

namespace EnvDiff

def isEmpty (d : EnvDiff) : Bool :=
  d.added.isEmpty && d.deleted.isEmpty && d.updated.isEmpty

/-- The operations of a diff. The values are those of `new`, the map that the diff leads to; a key
without a value there is passed over. -/
def operations (d : EnvDiff) (new : EnvMap) : List EnvOperation :=
  ((d.added ++ d.updated).filterMap fun key => (new.get? key).map (.upsert key))
    ++ d.deleted.map .delete

/-- The diff between the user's variables in two lists of rows. -/
def ofVars (old new : List EnvVar) : EnvDiff :=
  (EnvMap.ofVars old).diff (EnvMap.ofVars new)

end EnvDiff

end DeploymentConfig
