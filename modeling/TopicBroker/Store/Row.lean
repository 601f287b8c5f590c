import TopicBroker.Message
import TopicBroker.Record.Line

/-!
# Stored rows

The records that the store keeps as JSON texts: the log of published messages, and the queued
messages of a checkpoint.
-/

namespace TopicBroker.Store

open Record

instance : Flat Message where
  schema :=
    ⟨"Message",
      [.needed "message_id" .text, .needed "payload" .text, .needed "created_at" .text,
        .needed "expires_at" .text]⟩
  toRow x := (x.id, x.payload, x.createdAt, x.expiresAt, ())
  ofRow := fun (id, payload, createdAt, expiresAt, ()) => ⟨id, payload, createdAt, expiresAt⟩

/-- A queued message of a checkpoint. -/
structure QueuedMessage where
  queueId : String
  topicId : String
  message : Message
  deriving DecidableEq, Repr

instance : Structured QueuedMessage where
  shape :=
    ⟨"CheckpointRow",
      [.needed "queue_id" (.leaf .text), .needed "topic_id" (.leaf .text),
        .needed "message" (.record (Flat.schema Message))]⟩
  toRow x := (x.queueId, x.topicId, Flat.toRow x.message, ())
  ofRow := fun (queueId, topicId, message, ()) => ⟨queueId, topicId, Flat.ofRow message⟩

/-- A published message in the log. -/
structure LoggedMessage where
  messageId : String
  publisherId : ClientId
  topicId : String
  data : String
  createdAt : String
  expiresAt : String
  deriving DecidableEq, Repr

instance : Structured LoggedMessage where
  shape :=
    ⟨"StoredMessage",
      [.needed "message_id" (.leaf .text), .needed "publisher_id" (.leaf (.integer .int64)),
        .needed "topic_id" (.leaf .text), .needed "data" (.leaf .text),
        .needed "created_at" (.leaf .text), .needed "expires_at" (.leaf .text)]⟩
  toRow x := (x.messageId, x.publisherId, x.topicId, x.data, x.createdAt, x.expiresAt, ())
  ofRow := fun (messageId, publisherId, topicId, data, createdAt, expiresAt, ()) =>
    ⟨messageId, publisherId, topicId, data, createdAt, expiresAt⟩

def LoggedMessage.of (publisher : ClientId) (topicId : String) (message : Message) :
    LoggedMessage where
  messageId := message.id
  publisherId := publisher
  topicId := topicId
  data := message.payload
  createdAt := message.createdAt
  expiresAt := message.expiresAt

end TopicBroker.Store
