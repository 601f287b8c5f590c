import TopicBroker.Error
import TopicBroker.Record.Json

/-!
# Records as lines

A record as one line of JSON, as frames travel and as the store keeps its rows. A line that does not
hold the record expected is an internal error; whose fault it is depends on who reads it.
-/

namespace TopicBroker.Record

/-- The fault of a line that does not hold the record expected, as an internal error. -/
def serializationError (fault : Fault) : BrokerError :=
  .internal ("serialization: " ++ fault.message)

variable {α : Type} [Structured α]

def toLine (x : α) : String :=
  toJsonText x

def ofLine (line : String) : Except BrokerError α :=
  (fromJsonText line).mapError serializationError

end TopicBroker.Record
