import TopicBroker.Error

/-!
# Content types

The two formats in which the body of a frame may be written, by the tags that name them in a
frame's header.
-/

namespace TopicBroker.Wire

/-- The format of a body. -/
inductive ContentType where
  | json
  | xml
  deriving DecidableEq, Repr

namespace ContentType

def tag : ContentType → String
  | json => "json"
  | xml => "xml"

def ofTag (tag : String) : Except BrokerError ContentType :=
  match tag with
  | "json" => .ok json
  | "xml" => .ok xml
  | _ => .error (.invalidArgument "unsupported content-type")

/-- A format is read back from its tag. -/
@[simp] theorem ofTag_tag (format : ContentType) : ofTag format.tag = .ok format := by
  cases format <;> rfl

end ContentType

end TopicBroker.Wire
