import TopicBroker.Instant
import TopicBroker.Record.Schema

/-!
# Spans of time

How long messages live. A span leads from an instant to a later one, where that is in range. The
seconds of a setting become a span by way of a number of 64 bits with a sign, and where there is no
such number, or no span so long, they become the longest span.
-/

namespace TopicBroker

/-- A span of time, forwards: whole seconds and a fraction of less than one. -/
structure Span where
  seconds : Nat
  nanos : Nat
  nanos_lt : nanos < Instant.nanosPerSecond
  deriving DecidableEq

namespace Span

/-- The longest span, whose milliseconds are the largest number of 64 bits with a sign. -/
def longest : Span := ⟨9223372036854775, 807000000, by decide⟩

/-- The span of a number of seconds, if there is one so long. -/
def ofSeconds? (n : Nat) : Option Span :=
  if n ≤ longest.seconds then some ⟨n, 0, by decide⟩ else none

/-- The span of the seconds that are set, if there is one. -/
def ofTtl? (ttl : Nat) : Option Span :=
  (Record.IntRange.int64.member? ttl).bind fun n => ofSeconds? n.val.toNat

/-- The span that messages live for if these seconds are set. -/
def ofTtl (ttl : Nat) : Span :=
  (ofTtl? ttl).getD longest

end Span

/-- The instant a span later, where it is in range. A fraction may be added within a leap second;
what leads out of it is counted from the second before it. -/
def Instant.later? (t : Instant) (span : Span) : Option Instant :=
  if t.isLeap ∧ span.seconds = 0 ∧ t.nanos + span.nanos < 2 * nanosPerSecond then
    of? t.seconds (t.nanos + span.nanos)
  else
    let nanos := t.nanos % nanosPerSecond + span.nanos
    of? (t.seconds + span.seconds + (nanos / nanosPerSecond : Nat)) (nanos % nanosPerSecond)

end TopicBroker
