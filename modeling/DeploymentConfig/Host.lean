import DeploymentConfig.Catalog
import DeploymentConfig.Fault

/-!
# Hosts

A host is a subdomain and a catalog entry. It composes to a fully qualified
name (`Host.fqdn`), and a name is resolved to a host by the entry that serves it
(`serving?`): an entry that is spelled like the name, wherever it stands, or
else the first wildcard whose suffix the name ends in.

An `UnmatchedPolicy` says what becomes of a name that no entry serves.
-/

namespace DeploymentConfig

structure Host where
  subdomain : String
  /-- The catalog entry as it is spelled, star included. -/
  domain : String
  deriving DecidableEq

namespace Host

def schema : Schema Host :=
  .record (.required "subdomain" .text <| .required "domain" .text .nil)
    (fun h => (h.subdomain, h.domain, ()))
    (fun (subdomain, domain, _) => ⟨subdomain, domain⟩)

/-- The name of a host. The subdomain has a part in it only under a wildcard. -/
def fqdn (h : Host) : String :=
  if isWildcard h.domain then h.subdomain ++ withoutStars h.domain else h.domain

end Host

namespace AvailableDomain

/-- What stands before the suffix of a wildcard in a name, if the name ends in it; nothing, if the
entry is no wildcard and is spelled like the name. -/
def subdomainOf? (d : AvailableDomain) (fqdn : String) : Option String :=
  if d.isWildcard then
    if d.suffix.toList.isSuffixOf fqdn.toList then
      some (.ofList (fqdn.toList.take (fqdn.toList.length - d.suffix.toList.length)))
    else none
  else if d.domain = fqdn then some ""
  else none

/-- Whether an entry serves a name, other entries apart. -/
def serves (d : AvailableDomain) (fqdn : String) : Bool :=
  (d.subdomainOf? fqdn).isSome

end AvailableDomain

/-- The entry that serves a name. -/
def serving? (domains : List AvailableDomain) (fqdn : String) : Option AvailableDomain :=
  (domains.find? fun d => !d.isWildcard && d.serves fqdn).or
    (domains.find? fun d => d.isWildcard && d.serves fqdn)

/-- What to do with a name that no entry serves. -/
inductive UnmatchedPolicy where
  | reject
  /-- Place it on the first entry, without a subdomain. -/
  | firstAvailable
  deriving DecidableEq

namespace UnmatchedPolicy

def name : UnmatchedPolicy → String
  | reject => "reject"
  | firstAvailable => "first_available"

/-- The policy as it is shown to the user. -/
def label : UnmatchedPolicy → String
  | reject => "Reject"
  | firstAvailable => "FirstAvailable"

def schema : Schema UnmatchedPolicy :=
  .choice name [reject, firstAvailable]

end UnmatchedPolicy

namespace Host

/-- The host of a name that some entry serves. -/
def resolve? (domains : List AvailableDomain) (fqdn : String) : Option Host :=
  (serving? domains fqdn).map fun d => ⟨(d.subdomainOf? fqdn).getD "", d.domain⟩

/-- The first entry, without a subdomain. -/
def first? (domains : List AvailableDomain) : Option Host :=
  domains.head?.map fun d => ⟨"", d.domain⟩

/-- The host of a name. -/
def resolve (policy : UnmatchedPolicy) (domains : List AvailableDomain) (fqdn : String) :
    Except Fault Host :=
  match resolve? domains fqdn, policy with
  | some host, _ => .ok host
  | none, .reject => .error (.domainNotFound fqdn)
  | none, .firstAvailable =>
    match first? domains with
    | some host => .ok host
    | none => .error .noDomains

end Host

end DeploymentConfig
