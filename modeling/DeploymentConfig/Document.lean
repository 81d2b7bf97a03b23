import DeploymentConfig.Build.Message
import DeploymentConfig.Env.Rows
import DeploymentConfig.Port.Publication
import DeploymentConfig.Repository
import DeploymentConfig.Website.Route

/-!
# Documents

A document is everything that is edited for one application. It passes if each
of its sections does; the issues of all sections are reported together, those of
a section that is checked on its own under the section's path. What a document
submits is its payload.

A website of a document is an old one if a stored website has the same route,
and a new one otherwise.
-/

namespace DeploymentConfig

structure Document where
  name : String
  repository : Option RepositoryForm
  config : ConfigForm
  websites : List WebsiteForm
  /-- The websites that are stored for the application, if there is one already. -/
  storedWebsites : List Website
  envVars : List EnvVar
  publications : List PortPublication
  deriving DecidableEq

namespace Document

def schema : Schema Document :=
  .record (.required "name" .text <|
      .defaulted "repository" none (.optional RepositoryForm.schema) <|
      .defaulted "config" .empty ConfigForm.schema <|
      .defaulted "websites" [] (.list WebsiteForm.schema) <|
      .defaulted "persistedWebsites" [] (.list Website.schema) <|
      .defaulted "envVars" [] (.list EnvVar.schema) <|
      .defaulted "portPublications" [] (.list PortPublication.schema) .nil)
    (fun d => (d.name, d.repository, d.config, d.websites, d.storedWebsites, d.envVars,
      d.publications, ()))
    (fun (name, repository, config, websites, storedWebsites, envVars, publications, _) =>
      ⟨name, repository, config, websites, storedWebsites, envVars, publications⟩)

end Document

structure Payload where
  name : String
  config : ApplicationConfig
  websites : List WebsiteSettings
  envVars : List EnvVar
  publications : List PortPublication
  deriving DecidableEq

def Payload.schema : Schema Payload :=
  .record (.required "name" .text <| .required "config" ApplicationConfig.schema <|
      .required "websites" (.list WebsiteSettings.schema) <|
      .required "envVars" (.list EnvVar.schema) <|
      .required "portPublications" (.list PortPublication.schema) .nil)
    (fun p => (p.name, p.config, p.websites, p.envVars, p.publications, ()))
    (fun (name, config, websites, envVars, publications, _) =>
      ⟨name, config, websites, envVars, publications⟩)

namespace Document

/-- The record of a website of the document. -/
def websiteRecord (d : Document) (form : WebsiteForm) : WebsiteRecord :=
  match d.storedWebsites.find? (·.route = form.settings.route) with
  | some w => .stored w form
  | none => .added form

def websiteRecords (d : Document) : List WebsiteRecord :=
  d.websites.map d.websiteRecord

def repositoryIssues (d : Document) : List Issue :=
  match d.repository with
  | some repository => repository.issues.map (·.under "repository")
  | none => []

def publicationIssues (d : Document) (ranges : List PortRange) : List Issue :=
  d.publications.zipIdx.flatMap fun (p, index) =>
    (p.issues ranges).map (·.under (itemPath "portPublications" index))

/-- The configuration that is sent, or else the issues of its section. -/
def configSection (d : Document) : Except Fault (List Issue × Option ApplicationConfig) :=
  match d.config.config with
  | .ok config => .ok ([], some config)
  | .error (.invalid report) => .ok (report.issues.map (·.under "config"), none)
  | .error fault => .error fault

/-- The rows that are sent, and the issues of their section. -/
def envSection (d : Document) : List Issue × List EnvVar :=
  match EnvRows.prepare d.envVars with
  | .ok rows => ([], rows)
  | .error report => (report.issues, [])

/-- The issues of a document, section by section. -/
def issues (d : Document) (system : SystemInfo) (configIssues : List Issue) : List Issue :=
  requireText "name" d.name "Name"
    ++ d.repositoryIssues
    ++ configIssues
    ++ WebsiteRecord.issues system.domains d.websiteRecords
    ++ d.envSection.1
    ++ d.publicationIssues system.ports

/-- What a document submits with a configuration. -/
def payload (d : Document) (config : ApplicationConfig) : Payload where
  name := d.name
  config
  websites := d.websites.map (·.settings)
  envVars := d.envSection.2
  publications := d.publications

/-- What a document submits, if it passes. -/
def submit (d : Document) (system : SystemInfo) : Except Fault Payload :=
  match d.configSection with
  | .error fault => .error fault
  | .ok (configIssues, config) =>
    match Report.verdict (d.issues system configIssues) with
    | .error report => .error (.invalid report)
    | .ok () => .ok (d.payload (config.getD .empty))

end Document

end DeploymentConfig
