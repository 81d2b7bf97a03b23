import DeploymentConfig.Build.Axes
import DeploymentConfig.Fault

/-!
# Configurations on the wire

Between console and platform a configuration is one message of six kinds, a
deploy type with a build type. A message is split into its two axes
(`BuildMessage.axes`), which are merged into a message again
(`BuildMessage.ofAxes`); neither loses anything (`ofAxes_axes`, `axes_ofAxes`).

A received configuration may be of a kind that is not among the six. Its tag is
kept, but it is neither edited nor sent.
-/

namespace DeploymentConfig

inductive BuildMessage where
  | runtimeBuildpack (useMariadb useMongodb : Bool) (entrypoint command context : String)
  | runtimeCmd (useMariadb useMongodb : Bool) (entrypoint command baseImage buildCmd : String)
  | runtimeDockerfile (useMariadb useMongodb : Bool)
      (entrypoint command dockerfileName context : String)
  | staticBuildpack (artifactPath : String) (spa : Bool) (context : String)
  | staticCmd (artifactPath : String) (spa : Bool) (baseImage buildCmd : String)
  | staticDockerfile (artifactPath : String) (spa : Bool) (dockerfileName context : String)
  deriving DecidableEq

namespace BuildMessage

def tag : BuildMessage → String
  | runtimeBuildpack .. => "runtimeBuildpack"
  | runtimeCmd .. => "runtimeCmd"
  | runtimeDockerfile .. => "runtimeDockerfile"
  | staticBuildpack .. => "staticBuildpack"
  | staticCmd .. => "staticCmd"
  | staticDockerfile .. => "staticDockerfile"

/-- The two axes of a message. -/
def axes : BuildMessage → DeployConfig × BuildConfig
  | runtimeBuildpack maria mongo entry command context =>
    (.runtime ⟨maria, mongo, entry, command⟩, .buildpack context)
  | runtimeCmd maria mongo entry command image cmd =>
    (.runtime ⟨maria, mongo, entry, command⟩, .cmd image cmd)
  | runtimeDockerfile maria mongo entry command file context =>
    (.runtime ⟨maria, mongo, entry, command⟩, .dockerfile file context)
  | staticBuildpack path spa context => (.static ⟨path, spa⟩, .buildpack context)
  | staticCmd path spa image cmd => (.static ⟨path, spa⟩, .cmd image cmd)
  | staticDockerfile path spa file context => (.static ⟨path, spa⟩, .dockerfile file context)

/-- The message that two axes make. -/
def ofAxes : DeployConfig → BuildConfig → BuildMessage
  | .runtime ⟨maria, mongo, entry, command⟩, .buildpack context =>
    runtimeBuildpack maria mongo entry command context
  | .runtime ⟨maria, mongo, entry, command⟩, .cmd image cmd =>
    runtimeCmd maria mongo entry command image cmd
  | .runtime ⟨maria, mongo, entry, command⟩, .dockerfile file context =>
    runtimeDockerfile maria mongo entry command file context
  | .static ⟨path, spa⟩, .buildpack context => staticBuildpack path spa context
  | .static ⟨path, spa⟩, .cmd image cmd => staticCmd path spa image cmd
  | .static ⟨path, spa⟩, .dockerfile file context => staticDockerfile path spa file context

theorem ofAxes_axes (m : BuildMessage) : ofAxes m.axes.1 m.axes.2 = m := by
  cases m <;> rfl

abbrev RuntimeParts (β : Type) := Bool × Bool × String × String × β

abbrev StaticParts (β : Type) := String × Bool × β

/-- The fields of a message with a running process, those of its build axis last. -/
def runtimeFields {β : Type} (rest : Fields β) : Fields (RuntimeParts β) :=
  .defaulted "useMariadb" false .flag <| .defaulted "useMongodb" false .flag <|
  .defaulted "entrypoint" "" .text <| .defaulted "command" "" .text rest

/-- The fields of a message with served files, those of its build axis last. -/
def staticFields {β : Type} (rest : Fields β) : Fields (StaticParts β) :=
  .defaulted "artifactPath" "" .text <| .defaulted "spa" false .flag rest

def buildpackFields : Fields (String × Unit) :=
  .defaulted "context" "" .text .nil

def cmdFields : Fields (String × String × Unit) :=
  .defaulted "baseImage" "" .text <| .defaulted "buildCmd" "" .text .nil

def dockerfileFields : Fields (String × String × Unit) :=
  .defaulted "dockerfileName" "" .text <| .defaulted "context" "" .text .nil

/-- The fields of each kind of message, told apart in the order of the constructors. -/
abbrev Parts :=
  RuntimeParts (String × Unit) ⊕ RuntimeParts (String × String × Unit) ⊕
    RuntimeParts (String × String × Unit) ⊕ StaticParts (String × Unit) ⊕
    StaticParts (String × String × Unit) ⊕ StaticParts (String × String × Unit) ⊕ Empty

def variants : Variants Parts :=
  .variant "runtimeBuildpack" (runtimeFields buildpackFields) <|
  .variant "runtimeCmd" (runtimeFields cmdFields) <|
  .variant "runtimeDockerfile" (runtimeFields dockerfileFields) <|
  .variant "staticBuildpack" (staticFields buildpackFields) <|
  .variant "staticCmd" (staticFields cmdFields) <|
  .variant "staticDockerfile" (staticFields dockerfileFields) .nil

def parts : BuildMessage → Parts
  | runtimeBuildpack maria mongo entry command context =>
    .inl (maria, mongo, entry, command, context, ())
  | runtimeCmd maria mongo entry command image cmd =>
    .inr (.inl (maria, mongo, entry, command, image, cmd, ()))
  | runtimeDockerfile maria mongo entry command file context =>
    .inr (.inr (.inl (maria, mongo, entry, command, file, context, ())))
  | staticBuildpack path spa context => .inr (.inr (.inr (.inl (path, spa, context, ()))))
  | staticCmd path spa image cmd => .inr (.inr (.inr (.inr (.inl (path, spa, image, cmd, ())))))
  | staticDockerfile path spa file context =>
    .inr (.inr (.inr (.inr (.inr (.inl (path, spa, file, context, ()))))))

def ofParts : Parts → BuildMessage
  | .inl (maria, mongo, entry, command, context, _) =>
    runtimeBuildpack maria mongo entry command context
  | .inr (.inl (maria, mongo, entry, command, image, cmd, _)) =>
    runtimeCmd maria mongo entry command image cmd
  | .inr (.inr (.inl (maria, mongo, entry, command, file, context, _))) =>
    runtimeDockerfile maria mongo entry command file context
  | .inr (.inr (.inr (.inl (path, spa, context, _)))) => staticBuildpack path spa context
  | .inr (.inr (.inr (.inr (.inl (path, spa, image, cmd, _))))) => staticCmd path spa image cmd
  | .inr (.inr (.inr (.inr (.inr (.inl (path, spa, file, context, _)))))) =>
    staticDockerfile path spa file context

theorem ofParts_parts (m : BuildMessage) : ofParts m.parts = m := by
  cases m <;> rfl

/-- A message of one of the six kinds. -/
def schema : Schema BuildMessage :=
  .union "type" variants parts ofParts ofParts_parts

end BuildMessage

/-- A configuration as the platform sends it. -/
inductive ReceivedBuild where
  | known (message : BuildMessage)
  /-- A kind outside the six, by its tag. -/
  | unknown (tag : String)
  deriving DecidableEq

namespace ReceivedBuild

def tag : ReceivedBuild → String
  | known message => message.tag
  | unknown tag => tag

def schema : Schema ReceivedBuild :=
  .openUnion "type" BuildMessage.variants
    (fun
      | known message => .inl message.parts
      | unknown tag => .inr tag)
    (fun
      | .inl parts => known (.ofParts parts)
      | .inr tag => unknown tag)
    (by rintro (message | tag) <;> simp [BuildMessage.ofParts_parts])

end ReceivedBuild

/-- The configuration of an application; none if the platform has not stored any. -/
structure ApplicationConfig where
  build : Option ReceivedBuild
  deriving DecidableEq

namespace ApplicationConfig

def empty : ApplicationConfig :=
  ⟨none⟩

def schema : Schema ApplicationConfig :=
  .record (.elided "buildConfig" ReceivedBuild.schema .nil) (fun c => (c.build, ()))
    (fun (build, _) => ⟨build⟩)

/-- The form in which a configuration is edited. -/
def form (c : ApplicationConfig) : Except Fault ConfigForm :=
  match c.build with
  | none => .ok .empty
  | some (.unknown tag) => .error (.unknownVariant tag)
  | some (.known message) => .ok ⟨some message.axes.1, some message.axes.2⟩

end ApplicationConfig

/-- The configuration that a form submits, if it passes. -/
def ConfigForm.config (f : ConfigForm) : Except Fault ApplicationConfig :=
  match f.check with
  | .error report => .error (.invalid report)
  | .ok () =>
    match f.deploy, f.build with
    | some deploy, some build => .ok ⟨some (.known (.ofAxes deploy build))⟩
    | none, _ => .error (.invalid ⟨[unresolvedDeploy]⟩)
    | some _, none => .error (.invalid ⟨[unresolvedBuild]⟩)

end DeploymentConfig
