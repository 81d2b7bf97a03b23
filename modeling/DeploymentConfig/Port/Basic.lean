import DeploymentConfig.Issue
import DeploymentConfig.Text.Blank
import DeploymentConfig.Text.Numeral

/-!
# Ports

A port number is 32 bits wide wherever it is stored, and valid from `minPort` to
`maxPort`. `Port.ofText` reads one from a text input; the numeral has to fit the
32 bits to count as an integer at all.
-/

namespace DeploymentConfig

inductive Protocol where
  | tcp
  | udp
  deriving DecidableEq

namespace Protocol

def name : Protocol → String
  | tcp => "TCP"
  | udp => "UDP"

def schema : Schema Protocol :=
  .choice name [tcp, udp]

/-- The protocol with a name, in either case. No letter outside ASCII is a case of these. -/
def ofText? (s : String) : Option Protocol :=
  match s.toList.map Char.toLower with
  | ['t', 'c', 'p'] => some tcp
  | ['u', 'd', 'p'] => some udp
  | _ => none

/-- What the user is told of a name that no protocol has. -/
def unknown (s : String) : String :=
  "Unknown protocol: " ++ s

end Protocol

/-- Internet ports that may be published, both ends included. -/
structure PortRange where
  first : Int32
  last : Int32
  protocol : Protocol
  deriving DecidableEq

namespace PortRange

def schema : Schema PortRange :=
  .record (.field "startPort" ["start_port"] none .integer <|
      .field "endPort" ["end_port"] none .integer <| .required "protocol" Protocol.schema .nil)
    (fun r => (r.first, r.last, r.protocol, ()))
    (fun (first, last, protocol, _) => ⟨first, last, protocol⟩)

def contains (r : PortRange) (port : Int32) : Bool :=
  r.first ≤ port && port ≤ r.last

def text (r : PortRange) : String :=
  Text.decimal r.first.toInt ++ "-" ++ Text.decimal r.last.toInt

end PortRange

/-- A port of the application, published on a port of the internet. -/
structure PortPublication where
  internetPort : Int32
  applicationPort : Int32
  protocol : Protocol
  deriving DecidableEq

def PortPublication.schema : Schema PortPublication :=
  .record (.required "internetPort" .integer <| .required "applicationPort" .integer <|
      .defaulted "protocol" .tcp Protocol.schema .nil)
    (fun p => (p.internetPort, p.applicationPort, p.protocol, ()))
    (fun (internetPort, applicationPort, protocol, _) => ⟨internetPort, applicationPort, protocol⟩)

namespace Port

def minPort : Int32 :=
  1

def maxPort : Int32 :=
  65535

def isValid (port : Int32) : Bool :=
  minPort ≤ port && port ≤ maxPort

theorem isValid_iff {port : Int32} :
    isValid port = true ↔ 1 ≤ port.toInt ∧ port.toInt ≤ 65535 := by
  simp only [isValid, minPort, maxPort, Bool.and_eq_true, decide_eq_true_eq, Int32.le_iff_toInt_le]
  rfl

/-- The issue of a port number that is not valid. -/
def outOfRange (field : String) : Issue :=
  ⟨field, .outOfRange, "Port must be between " ++ Text.decimal minPort.toInt ++ " and "
    ++ Text.decimal maxPort.toInt⟩

/-- The issues of a port number. -/
def issues (field : String) (port : Int32) : List Issue :=
  if isValid port then [] else [outOfRange field]

/-- The 32-bit integer that a numeral writes. -/
def int32? (cs : List Char) : Option Int32 :=
  ((Text.integer? cs).filter fun n =>
    Int32.minValue.toInt ≤ n ∧ n ≤ Int32.maxValue.toInt).map .ofInt

/-- Reads a port from a text input. -/
def ofText (field text : String) : Except Issue Int32 :=
  match Text.trimmed text with
  | [] => .error ⟨field, .missingRequired, "Port is required"⟩
  | cs =>
    match int32? cs with
    | none => .error ⟨field, .invalidFormat, "Port must be an integer"⟩
    | some port => if isValid port then .ok port else .error (outOfRange field)

end Port

end DeploymentConfig
