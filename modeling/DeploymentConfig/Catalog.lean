import DeploymentConfig.Port.Basic

/-!
# The catalog

What the platform offers: domains to place websites on, and ports to publish. A
domain that begins with `*` is a wildcard, under which every subdomain is free.
-/

namespace DeploymentConfig

/-- Whether a catalog entry is a wildcard. -/
def isWildcard (domain : String) : Bool :=
  domain.toList.head? == some '*'

/-- An entry without its stars: what the names under a wildcard end in. -/
def withoutStars (domain : String) : String :=
  .ofList (domain.toList.filter (· ≠ '*'))

structure AvailableDomain where
  domain : String
  /-- Whether the platform can put authentication in front of websites here. -/
  authAvailable : Bool
  /-- Whether a website stands here already. -/
  alreadyBound : Bool
  deriving DecidableEq

namespace AvailableDomain

def schema : Schema AvailableDomain :=
  .record (.required "domain" .text <|
      .field "authAvailable" ["auth_available"] (some false) .flag <|
      .field "alreadyBound" ["already_bound"] (some false) .flag .nil)
    (fun d => (d.domain, d.authAvailable, d.alreadyBound, ()))
    (fun (domain, authAvailable, alreadyBound, _) => ⟨domain, authAvailable, alreadyBound⟩)

def isWildcard (d : AvailableDomain) : Bool :=
  DeploymentConfig.isWildcard d.domain

def suffix (d : AvailableDomain) : String :=
  withoutStars d.domain

end AvailableDomain

/-- The first entry that is spelled `domain`. -/
def listed? (domains : List AvailableDomain) (domain : String) : Option AvailableDomain :=
  domains.find? (·.domain = domain)

structure SystemInfo where
  domains : List AvailableDomain
  ports : List PortRange
  deriving DecidableEq

namespace SystemInfo

def empty : SystemInfo :=
  ⟨[], []⟩

def schema : Schema SystemInfo :=
  .record (.defaulted "domains" [] (.list AvailableDomain.schema) <|
      .defaulted "ports" [] (.list PortRange.schema) .nil)
    (fun s => (s.domains, s.ports, ()))
    (fun (domains, ports, _) => ⟨domains, ports⟩)

end SystemInfo

end DeploymentConfig
