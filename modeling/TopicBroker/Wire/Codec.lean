import TopicBroker.Record.Json
import TopicBroker.Record.Xml
import TopicBroker.Wire.ContentType

/-!
# Bodies

Records written as the body of a frame in one of the two formats, and read back from it. A body
that cannot be read is the fault of its sender.
-/

namespace TopicBroker.Wire.ContentType

open Record

variable {α : Type} [Structured α]

def encode (format : ContentType) (x : α) : String :=
  match format with
  | json => toJsonText x
  | xml => toXmlText x

def decode (format : ContentType) (body : String) : Except BrokerError α :=
  match format with
  | json => (fromJsonText body).mapError fun fault =>
    .invalidArgument ("failed to decode json body: " ++ fault.message)
  | xml => (fromXmlText body).mapError fun fault =>
    .invalidArgument ("failed to decode xml body: " ++ fault.message)

end TopicBroker.Wire.ContentType
