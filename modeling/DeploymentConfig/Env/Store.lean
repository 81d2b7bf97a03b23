import DeploymentConfig.Env.Diff
import DeploymentConfig.Fault

/-!
# Writing variables to a store

Every operation of a diff is attempted, whatever became of those before it, and
nothing is taken back. The refusals are reported by key, so that just those can
be tried again.

`MemoryStore` is a store that refuses certain keys and keeps a record of what it
was asked to do.
-/

namespace DeploymentConfig

/-- Why a store refuses: what went wrong, and behind it what caused that, and so on. -/
structure Refusal where
  causes : List String
  deriving DecidableEq

def Refusal.text (r : Refusal) : String :=
  ": ".intercalate r.causes

/-- What a store makes of an operation: a refusal, if it refuses, and its state afterwards. -/
abbrev Attempt (σ : Type) := EnvOperation → σ → Option Refusal × σ

variable {σ : Type}

/-- Attempts operations in order. -/
def attemptAll (attempt : Attempt σ) : List EnvOperation → σ → List KeyFailure × σ
  | [], s => ([], s)
  | op :: ops, s =>
    let (refusal, s) := attempt op s
    let (failures, s) := attemptAll attempt ops s
    match refusal with
    | none => (failures, s)
    | some refusal => (⟨op.key, refusal.text⟩ :: failures, s)

/-- Writes the diff between two lists of rows to a store. -/
def writeDiff (attempt : Attempt σ) (old new : List EnvVar) (s : σ) : Except Fault EnvDiff × σ :=
  let diff := EnvDiff.ofVars old new
  let (failures, s) := attemptAll attempt (diff.operations (.ofVars new)) s
  if failures.isEmpty then (.ok diff, s) else (.error (.partialFailure failures), s)

structure MemoryStore where
  content : EnvMap
  /-- Every operation that was attempted, refused or not. -/
  calls : List EnvOperation
  deriving DecidableEq

/-- Attempts an operation on a store in memory that refuses the keys for which `refuses` has a
reason. -/
def MemoryStore.attempt (refuses : String → Option Refusal) : Attempt MemoryStore :=
  fun op s =>
    let s := { s with calls := s.calls ++ [op] }
    match refuses op.key with
    | some refusal => (some refusal, s)
    | none => (none, { s with content := s.content.apply op })

end DeploymentConfig
