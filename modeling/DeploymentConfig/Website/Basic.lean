import DeploymentConfig.Host

/-!
# Websites

A website routes requests for a name and a path to the application. Its settings
(`WebsiteSettings`) carry the full name; the form in which it is edited
(`WebsiteForm`) carries the two parts of the host instead, and composes the name
when it is submitted. Both share the `Routing`.
-/

namespace DeploymentConfig

/-- What the platform asks of visitors before it lets them through. -/
inductive Authentication where
  | off
  | soft
  | hard
  deriving DecidableEq

namespace Authentication

def name : Authentication → String
  | off => "OFF"
  | soft => "SOFT"
  | hard => "HARD"

def schema : Schema Authentication :=
  .choice name [off, soft, hard]

/-- Whether the domain has to offer authentication. -/
def isRequired (a : Authentication) : Bool :=
  a ≠ off

end Authentication

/-- What a website and its form have in common. -/
structure Routing where
  pathPrefix : String
  stripPrefix : Bool
  https : Bool
  h2c : Bool
  httpPort : Int32
  authentication : Authentication
  deriving DecidableEq

namespace Routing

abbrev Parts := String × Bool × Bool × Bool × Int32 × Authentication × Unit

def fields : Fields Parts :=
  .required "pathPrefix" .text <| .defaulted "stripPrefix" false .flag <|
  .defaulted "https" false .flag <| .defaulted "h2c" false .flag <|
  .required "httpPort" .integer <| .defaulted "authentication" .off Authentication.schema .nil

def parts (r : Routing) : Parts :=
  (r.pathPrefix, r.stripPrefix, r.https, r.h2c, r.httpPort, r.authentication, ())

def ofParts : Parts → Routing
  | (pathPrefix, stripPrefix, https, h2c, httpPort, authentication, _) =>
    ⟨pathPrefix, stripPrefix, https, h2c, httpPort, authentication⟩

/-- Routing on a domain: authentication is turned off where the domain does not offer it. -/
def onDomain (d : AvailableDomain) (r : Routing) : Routing :=
  if d.authAvailable then r else { r with authentication := .off }

end Routing

/-- A website as it is submitted. -/
structure WebsiteSettings extends Routing where
  fqdn : String
  deriving DecidableEq

namespace WebsiteSettings

def schema : Schema WebsiteSettings :=
  .record (.required "fqdn" .text Routing.fields) (fun w => (w.fqdn, w.parts))
    (fun (fqdn, routing) => ⟨.ofParts routing, fqdn⟩)

/-- What tells websites apart. -/
def route (w : WebsiteSettings) : String × String :=
  (w.fqdn, w.pathPrefix)

end WebsiteSettings

/-- A website that the platform has stored. -/
structure Website extends WebsiteSettings where
  id : String
  deriving DecidableEq

def Website.schema : Schema Website :=
  .record (.required "id" .text <| .required "fqdn" .text Routing.fields)
    (fun w => (w.id, w.fqdn, w.parts))
    (fun (id, fqdn, routing) => ⟨⟨.ofParts routing, fqdn⟩, id⟩)

/-- A website as it is edited. -/
structure WebsiteForm extends Routing where
  subdomain : String
  /-- The catalog entry as it is spelled, star included. -/
  domain : String
  deriving DecidableEq

namespace WebsiteForm

def schema : Schema WebsiteForm :=
  .record (.defaulted "subdomain" "" .text <| .required "domain" .text Routing.fields)
    (fun f => (f.subdomain, f.domain, f.parts))
    (fun (subdomain, domain, routing) => ⟨.ofParts routing, subdomain, domain⟩)

/-- A new website on a domain. -/
def new (domain : String) : WebsiteForm where
  subdomain := ""
  domain
  pathPrefix := "/"
  stripPrefix := false
  https := true
  h2c := false
  httpPort := 80
  authentication := .off

def host (f : WebsiteForm) : Host :=
  ⟨f.subdomain, f.domain⟩

/-- Moves a website onto a domain. -/
def selectDomain (d : AvailableDomain) (f : WebsiteForm) : WebsiteForm :=
  { f with toRouting := f.onDomain d, domain := d.domain }

/-- The settings that a form submits. -/
def settings (f : WebsiteForm) : WebsiteSettings :=
  { f with fqdn := f.host.fqdn }

/-- The form of a website on a host. -/
def ofHost (domains : List AvailableDomain) (host : Host) (r : Routing) : WebsiteForm :=
  let form : WebsiteForm := { r with subdomain := host.subdomain, domain := host.domain }
  match listed? domains host.domain with
  | some d => form.selectDomain d
  | none => form

end WebsiteForm

/-- The form in which a website is edited: its host, with authentication turned off where the domain
does not offer it. -/
def WebsiteSettings.form (policy : UnmatchedPolicy) (domains : List AvailableDomain)
    (w : WebsiteSettings) : Except Fault WebsiteForm :=
  (Host.resolve policy domains w.fqdn).map fun host => .ofHost domains host w.toRouting

end DeploymentConfig
