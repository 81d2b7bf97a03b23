import DeploymentConfig.Port.Publication

/-!
# Suggesting ports

A suggestion is drawn: first a range of the protocol, then a port in it. The
draws are arguments (`Draw`), so that a suggestion is a function of them; a draw
is always among at least one. Ranges that are turned round hold no port and are
never drawn. Without any range the suggestion is port 0.

`Port.suggestions` lists what can be suggested.
-/

namespace DeploymentConfig

/-- A choice among the numbers from 0 to `n`, for every `n`. -/
abbrev Draw := (n : Nat) → Fin (n + 1)

namespace PortRange

def isInhabited (r : PortRange) : Bool :=
  r.first ≤ r.last

/-- The number of ports in a range after its first. -/
def span (r : PortRange) : Nat :=
  (r.last.toInt - r.first.toInt).toNat

/-- The port that stands `offset` after the first of a range. -/
def portAt (r : PortRange) (offset : Nat) : Int32 :=
  .ofInt (r.first.toInt + offset)

end PortRange

namespace Port

/-- The ranges that a suggestion is drawn from. -/
def candidates (protocol : Protocol) (ranges : List PortRange) : List PortRange :=
  (rangesOf protocol ranges).filter (·.isInhabited)

/-- A port that may be published on, or 0 if there is none. -/
def suggest (range port : Draw) (protocol : Protocol) (ranges : List PortRange) : Int32 :=
  match candidates protocol ranges with
  | [] => 0
  | r :: rs =>
    let chosen := (r :: rs).get (range rs.length)
    chosen.portAt (port chosen.span)

/-- Every port that some draws suggest, in increasing order. -/
def suggestions (protocol : Protocol) (ranges : List PortRange) : List Int32 :=
  match candidates protocol ranges with
  | [] => [0]
  | rs =>
    (rs.flatMap fun r => (List.range (r.span + 1)).map r.portAt).mergeSort (· ≤ ·) |>.eraseDups

end Port

end DeploymentConfig
