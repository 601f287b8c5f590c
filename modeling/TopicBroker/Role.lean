/-!
# Roles

Clients speak for publishers or for subscribers. Which of the two a client speaks for follows from
the port that it connects from.
-/

namespace TopicBroker

inductive Role where
  | publisher
  | subscriber
  deriving DecidableEq, Repr

def Role.name : Role → String
  | publisher => "publisher"
  | subscriber => "subscriber"

abbrev Port := Fin 65536

/-- The ports from a first one up to, but not including, a last one. -/
structure PortRange where
  first : Port
  last : Port
  deriving DecidableEq, Repr

def PortRange.contains (range : PortRange) (port : Port) : Bool :=
  range.first ≤ port && port < range.last

def PortRange.isEmpty (range : PortRange) : Bool :=
  range.last ≤ range.first

/-- Each of two ranges begins before the other ends. Two ranges that have ports share one then. -/
def PortRange.overlaps (range other : PortRange) : Bool :=
  range.first < other.last && other.first < range.last

structure RoleRanges where
  publisher : PortRange
  subscriber : PortRange
  deriving DecidableEq, Repr

namespace RoleRanges

/-- The ports of the roles unless settings say otherwise. -/
def standard : RoleRanges := ⟨⟨5000, 6000⟩, ⟨6000, 7000⟩⟩

/-- The role of a client, if its port has one. Where the ranges overlap a client is a publisher. -/
def classify (ranges : RoleRanges) (port : Port) : Option Role :=
  if ranges.publisher.contains port then some .publisher
  else if ranges.subscriber.contains port then some .subscriber
  else none

end RoleRanges

end TopicBroker
