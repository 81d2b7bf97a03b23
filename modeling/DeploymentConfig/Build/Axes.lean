import DeploymentConfig.Required

/-!
# The two axes of a configuration

How an application is deployed (`DeployConfig`: as a running process, or as files
that are served) and how it is built (`BuildConfig`: from a buildpack, from a
command in a base image, or from a Dockerfile) are chosen apart from each other,
and each may not be chosen yet. Choosing the kind that an axis already has
changes nothing.
-/

namespace DeploymentConfig

inductive DeployType where
  | runtime
  | static
  deriving DecidableEq

namespace DeployType

def name : DeployType → String
  | runtime => "runtime"
  | static => "static"

def schema : Schema DeployType :=
  .choice name [runtime, static]

end DeployType

inductive BuildType where
  | buildpack
  | cmd
  | dockerfile
  deriving DecidableEq

namespace BuildType

def name : BuildType → String
  | buildpack => "buildpack"
  | cmd => "cmd"
  | dockerfile => "dockerfile"

def schema : Schema BuildType :=
  .choice name [buildpack, cmd, dockerfile]

end BuildType

/-- How a running process is started, and the databases it uses. -/
structure RuntimeConfig where
  useMariadb : Bool
  useMongodb : Bool
  entrypoint : String
  command : String
  deriving DecidableEq

/-- Which files are served; `spa` if one page answers every path. -/
structure StaticConfig where
  artifactPath : String
  spa : Bool
  deriving DecidableEq

inductive DeployConfig where
  | runtime (config : RuntimeConfig)
  | static (config : StaticConfig)
  deriving DecidableEq

namespace DeployConfig

def schema : Schema DeployConfig :=
  .union "type"
    (.variant "runtime"
        (.required "useMariadb" .flag <| .required "useMongodb" .flag <|
          .required "entrypoint" .text <| .required "command" .text .nil) <|
      .variant "static" (.required "artifactPath" .text <| .required "spa" .flag .nil) .nil)
    (fun
      | runtime c => .inl (c.useMariadb, c.useMongodb, c.entrypoint, c.command, ())
      | static c => .inr (.inl (c.artifactPath, c.spa, ())))
    (fun
      | .inl (useMariadb, useMongodb, entrypoint, command, _) =>
        runtime ⟨useMariadb, useMongodb, entrypoint, command⟩
      | .inr (.inl (artifactPath, spa, _)) => static ⟨artifactPath, spa⟩)

def type : DeployConfig → DeployType
  | runtime _ => .runtime
  | static _ => .static

/-- The empty configuration of a type. -/
def ofType : DeployType → DeployConfig
  | .runtime => runtime ⟨false, false, "", ""⟩
  | .static => static ⟨"", false⟩

def issues : DeployConfig → List Issue
  | runtime _ => []
  | static c => requireText "deployConfig.artifactPath" c.artifactPath "Artifact path"

end DeployConfig

inductive BuildConfig where
  | buildpack (context : String)
  | cmd (baseImage buildCmd : String)
  | dockerfile (dockerfileName context : String)
  deriving DecidableEq

namespace BuildConfig

def schema : Schema BuildConfig :=
  .union "type"
    (.variant "buildpack" (.required "context" .text .nil) <|
      .variant "cmd" (.required "baseImage" .text <| .required "buildCmd" .text .nil) <|
      .variant "dockerfile" (.required "dockerfileName" .text <| .required "context" .text .nil)
        .nil)
    (fun
      | buildpack context => .inl (context, ())
      | cmd baseImage buildCmd => .inr (.inl (baseImage, buildCmd, ()))
      | dockerfile dockerfileName context => .inr (.inr (.inl (dockerfileName, context, ()))))
    (fun
      | .inl (context, _) => buildpack context
      | .inr (.inl (baseImage, buildCmd, _)) => cmd baseImage buildCmd
      | .inr (.inr (.inl (dockerfileName, context, _))) => dockerfile dockerfileName context)

def type : BuildConfig → BuildType
  | buildpack _ => .buildpack
  | cmd .. => .cmd
  | dockerfile .. => .dockerfile

/-- The empty configuration of a type. -/
def ofType : BuildType → BuildConfig
  | .buildpack => buildpack ""
  | .cmd => cmd "" ""
  | .dockerfile => dockerfile "" ""

def issues : BuildConfig → List Issue
  | dockerfile dockerfileName _ =>
    requireText "buildConfig.dockerfileName" dockerfileName "Dockerfile name"
  | _ => []

end BuildConfig

/-- A configuration as it is edited. -/
structure ConfigForm where
  deploy : Option DeployConfig
  build : Option BuildConfig
  deriving DecidableEq

namespace ConfigForm

def empty : ConfigForm :=
  ⟨none, none⟩

def schema : Schema ConfigForm :=
  .record (.defaulted "deployConfig" none (.optional DeployConfig.schema) <|
      .defaulted "buildConfig" none (.optional BuildConfig.schema) .nil)
    (fun f => (f.deploy, f.build, ()))
    (fun (deploy, build, _) => ⟨deploy, build⟩)

/-- Chooses a deploy type. What was filled in stays if it is of that type. -/
def selectDeploy (t : DeployType) (f : ConfigForm) : ConfigForm :=
  if f.deploy.any (·.type = t) then f else { f with deploy := some (.ofType t) }

/-- Chooses a build type. What was filled in stays if it is of that type. -/
def selectBuild (t : BuildType) (f : ConfigForm) : ConfigForm :=
  if f.build.any (·.type = t) then f else { f with build := some (.ofType t) }

def unresolvedDeploy : Issue :=
  ⟨"deployConfig", .unresolvedVariant, "Select deploy type"⟩

def unresolvedBuild : Issue :=
  ⟨"buildConfig", .unresolvedVariant, "Select build type"⟩

def deployIssues (f : ConfigForm) : List Issue :=
  match f.deploy with
  | none => [unresolvedDeploy]
  | some deploy => deploy.issues

def buildIssues (f : ConfigForm) : List Issue :=
  match f.build with
  | none => [unresolvedBuild]
  | some build => build.issues

def issues (f : ConfigForm) : List Issue :=
  f.deployIssues ++ f.buildIssues

def check (f : ConfigForm) : Except Report Unit :=
  Report.verdict f.issues

end ConfigForm

end DeploymentConfig
