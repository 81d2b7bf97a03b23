import DeploymentConfig.Port.Basic

/-!
# Publishing ports

An application may publish on an internet port that some range of the protocol
contains (`Port.isPublishable`). The application's own port has to be valid; the
internet port needs no such check, the ranges being the platform's.
-/

namespace DeploymentConfig

namespace Port

/-- The ranges of a protocol, in catalog order. -/
def rangesOf (protocol : Protocol) (ranges : List PortRange) : List PortRange :=
  ranges.filter (·.protocol = protocol)

def isPublishable (port : Int32) (protocol : Protocol) (ranges : List PortRange) : Bool :=
  (rangesOf protocol ranges).any (·.contains port)

/-- The ranges of a protocol as a list for the user. -/
def describe (protocol : Protocol) (ranges : List PortRange) : String :=
  ", ".intercalate ((rangesOf protocol ranges).map PortRange.text)

end Port

namespace PortPublication

/-- What the user is told of an internet port that cannot be published on. -/
def unavailable (protocol : Protocol) (ranges : List PortRange) : String :=
  let allowed := Port.describe protocol ranges
  if allowed.isEmpty then "No " ++ protocol.name ++ " ports are available"
  else "Internet port must be within the available " ++ protocol.name ++ " ranges: " ++ allowed

def issues (p : PortPublication) (ranges : List PortRange) : List Issue :=
  (if Port.isPublishable p.internetPort p.protocol ranges then []
    else [⟨"internetPort", .outOfRange, unavailable p.protocol ranges⟩])
    ++ Port.issues "applicationPort" p.applicationPort

def check (p : PortPublication) (ranges : List PortRange) : Except Report Unit :=
  Report.verdict (p.issues ranges)

end PortPublication

end DeploymentConfig
