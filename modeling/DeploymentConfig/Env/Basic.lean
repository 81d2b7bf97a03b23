import DeploymentConfig.Schema.Basic

/-!
# Environment variables

The user edits rows (`EnvVar`); rows that the platform injects are marked and
not the user's to change. Changes are sent one key at a time (`EnvOperation`).
-/

namespace DeploymentConfig

structure EnvVar where
  key : String
  value : String
  /-- Injected by the platform. -/
  system : Bool
  deriving DecidableEq

namespace EnvVar

def schema : Schema EnvVar :=
  .record (.required "key" .text <| .required "value" .text <|
      .defaulted "system" false .flag .nil)
    (fun v => (v.key, v.value, v.system, ()))
    (fun (key, value, system, _) => ⟨key, value, system⟩)

/-- Whether a row stands for a variable of the user's. -/
def isOwn (v : EnvVar) : Bool :=
  !v.system && v.key ≠ ""

end EnvVar

inductive EnvOperation where
  | upsert (key value : String)
  | delete (key : String)
  deriving DecidableEq

namespace EnvOperation

def key : EnvOperation → String
  | upsert key _ | delete key => key

def schema : Schema EnvOperation :=
  .union "op"
    (.variant "upsert" (.required "key" .text <| .required "value" .text .nil) <|
      .variant "delete" (.required "key" .text .nil) .nil)
    (fun
      | upsert key value => .inl (key, value, ())
      | delete key => .inr (.inl (key, ())))
    (fun
      | .inl (key, value, _) => upsert key value
      | .inr (.inl (key, _)) => delete key)

end EnvOperation

end DeploymentConfig
