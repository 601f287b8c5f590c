import TopicBroker.Calendar

/-!
# Instants

Points in time from the first second of the year -262143 to the last of 262142. A second that
exists only as a leap second is the one before it with a fraction of a full second or more, so
that instants are ordered by their seconds first and their fractions next.
-/

namespace TopicBroker

/-- The first second of the year -262143, counted from 1 January 1970. -/
def Instant.earliest : Int := -8334601228800

/-- The last second of the year 262142, counted from 1 January 1970. -/
def Instant.latest : Int := 8210266876799

def Instant.nanosPerSecond : Nat := 1000000000

/-- A point in time: whole seconds from 1 January 1970, and a fraction of a second. A fraction of
a full second or more marks a leap second. -/
structure Instant where
  seconds : Int
  nanos : Nat
  seconds_inRange : Instant.earliest ≤ seconds ∧ seconds ≤ Instant.latest
  nanos_lt : nanos < 2 * Instant.nanosPerSecond
  deriving DecidableEq

namespace Instant

instance : LE Instant where
  le s t := s.seconds < t.seconds ∨ (s.seconds = t.seconds ∧ s.nanos ≤ t.nanos)

instance (s t : Instant) : Decidable (s ≤ t) :=
  inferInstanceAs (Decidable (s.seconds < t.seconds ∨ (s.seconds = t.seconds ∧ s.nanos ≤ t.nanos)))

/-- The instant that lies within a leap second. -/
def isLeap (t : Instant) : Bool :=
  nanosPerSecond ≤ t.nanos

/-- The instant a number of whole seconds and a fraction after 1 January 1970, where it is in
range. -/
def of? (seconds : Int) (nanos : Nat) : Option Instant :=
  if h : (earliest ≤ seconds ∧ seconds ≤ latest) ∧ nanos < 2 * nanosPerSecond then
    some ⟨seconds, nanos, h.1, h.2⟩
  else none

/-- The instant a number of whole seconds after 1 January 1970, where it is in range. -/
def ofSeconds? (seconds : Int) : Option Instant :=
  of? seconds 0

/-- The instant a number of seconds later, where it is in range. Moving away from a leap second
counts it forwards from the second before it and backwards from the second after it. -/
def addSeconds? (t : Instant) (n : Int) : Option Instant :=
  if n = 0 then some t
  else if t.isLeap && n < 0 then of? (t.seconds + 1 + n) (t.nanos % nanosPerSecond)
  else of? (t.seconds + n) (t.nanos % nanosPerSecond)

/-- The instant without its fraction of a second; a leap second stays one. -/
def truncate (t : Instant) : Instant where
  seconds := t.seconds
  nanos := if t.isLeap then nanosPerSecond else 0
  seconds_inRange := t.seconds_inRange
  nanos_lt := by split <;> decide

end Instant

end TopicBroker
