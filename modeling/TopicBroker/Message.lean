import TopicBroker.Record.Schema
import TopicBroker.Timestamp

/-!
# Messages

A message as the broker holds it, and a draft of one as a publisher hands it in.
-/

namespace TopicBroker

/-- The number that a publisher or subscriber names itself by. -/
abbrev ClientId := Record.IntRange.int64.Member

/-- A message. Its times are timestamps. -/
structure Message where
  id : String
  payload : String
  createdAt : String
  expiresAt : String
  deriving DecidableEq, Repr

/-- The message has expired at the given time. One whose expiry cannot be read has expired, so that
it is set aside instead of being served forever. -/
def Message.isExpiredAt (message : Message) (now : Instant) : Bool :=
  match Timestamp.parse message.expiresAt with
  | .ok expiry => expiry ≤ now
  | .error _ => true

/-- A message without an id. Times that are left out, or blank, are filled in. -/
structure Draft where
  data : String
  createdAt : Option String
  expiresAt : Option String
  deriving DecidableEq, Repr

end TopicBroker
