import DeploymentConfig.Required
import DeploymentConfig.Website.Basic

/-!
# Checking a website

A website has to stand on a domain of the catalog that is free for it and offers
the authentication it asks for; its path begins with a slash and its port is
valid. The catalog entry is the first that is spelled like the form's domain.

A bound domain may be kept but not newly chosen: `baseline`, the value that the
platform has stored, tells the two apart.
-/

namespace DeploymentConfig.WebsiteForm

/-- The issue of a form that has not found its place on a domain. -/
def placeIssues (f : WebsiteForm) (d : AvailableDomain) (baseline : Option WebsiteSettings) :
    List Issue :=
  if d.isWildcard then
    if Text.isBlank f.subdomain then
      [⟨"subdomain", .crossFieldConstraint, "Subdomain is required for wildcard domains"⟩]
    else []
  else if d.alreadyBound && baseline.all (·.fqdn ≠ f.host.fqdn) then
    [⟨"domain", .crossFieldConstraint, "Domain " ++ d.domain ++ " is already in use"⟩]
  else []

/-- The issue of a form that asks for authentication where there is none. -/
def authenticationIssues (f : WebsiteForm) (d : AvailableDomain) : List Issue :=
  if f.authentication.isRequired && !d.authAvailable then
    [⟨"authentication", .crossFieldConstraint,
      "Authentication " ++ f.authentication.name ++ " is not available for " ++ d.domain⟩]
  else []

/-- The issues of the domain of a form. -/
def domainIssues (f : WebsiteForm) (domains : List AvailableDomain)
    (baseline : Option WebsiteSettings) : List Issue :=
  if Text.isBlank f.domain then [⟨"domain", .missingRequired, "Domain is required"⟩]
  else match listed? domains f.domain with
    | none => [⟨"domain", .crossFieldConstraint, "Domain " ++ f.domain ++ " is not available"⟩]
    | some d => f.placeIssues d baseline ++ f.authenticationIssues d

/-- The issue of a path that does not begin with a slash. -/
def pathIssues (f : WebsiteForm) : List Issue :=
  if f.pathPrefix.toList.head? = some '/' then []
  else [⟨"pathPrefix", .invalidFormat, "Path prefix must start with '/'"⟩]

def issues (f : WebsiteForm) (domains : List AvailableDomain) (baseline : Option WebsiteSettings) :
    List Issue :=
  f.domainIssues domains baseline ++ f.pathIssues ++ Port.issues "httpPort" f.httpPort

def check (f : WebsiteForm) (domains : List AvailableDomain) (baseline : Option WebsiteSettings) :
    Except Report Unit :=
  Report.verdict (f.issues domains baseline)

end DeploymentConfig.WebsiteForm
