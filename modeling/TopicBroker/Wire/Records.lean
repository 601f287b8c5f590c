import TopicBroker.Message

/-!
# Wire records

The records that the bodies of requests and responses hold, each with the schema by which it is
written. Clients are named by whole numbers of 64 bits.
-/

namespace TopicBroker.Wire

open Record

abbrev clientId : Kind := .leaf (.integer .int64)

/-- The kind of the fields that are texts. -/
abbrev text : Kind := .leaf .text

abbrev texts : Kind := .leaf .texts

/-! ## Messages -/

/-- A message as it travels. Times that the sender leaves out are empty. -/
structure MessageBody where
  data : String
  createdAt : String
  expiresAt : String
  deriving DecidableEq, Repr

instance : Flat MessageBody where
  schema :=
    ⟨"MessageBody",
      [.needed "data" .text, .orElse "createdAt" .text "", .orElse "expiresAt" .text ""]⟩
  toRow x := (x.data, x.createdAt, x.expiresAt, ())
  ofRow := fun (data, createdAt, expiresAt, ()) => ⟨data, createdAt, expiresAt⟩

def MessageBody.of (m : Message) : MessageBody :=
  ⟨m.payload, m.createdAt, m.expiresAt⟩

abbrev message : Kind := .record (Flat.schema MessageBody)

/-! ## Topics -/

structure ShowTopicRequest where
  publisherId : Option ClientId
  subscriberId : Option ClientId
  deriving DecidableEq, Repr

instance : Structured ShowTopicRequest where
  shape := ⟨"ShowTopicRequest", [.optional "publisherId" clientId, .optional "subscriberId" clientId]⟩
  toRow x := (x.publisherId, x.subscriberId, ())
  ofRow := fun (publisherId, subscriberId, ()) => ⟨publisherId, subscriberId⟩

structure ShowTopicResponse where
  topics : List String
  deriving DecidableEq, Repr

instance : Structured ShowTopicResponse where
  shape := ⟨"ShowTopicResponse", [.orElse "topics" texts []]⟩
  toRow x := (x.topics, ())
  ofRow := fun (topics, ()) => ⟨topics⟩

/-! ## Publishers -/

/-- Binds a publisher to a topic. -/
structure ConnectToTopicRequest where
  publisherId : ClientId
  topicName : String
  deriving DecidableEq, Repr

instance : Structured ConnectToTopicRequest where
  shape := ⟨"ConnectToTopicRequest", [.needed "publisherId" clientId, .needed "topicName" text]⟩
  toRow x := (x.publisherId, x.topicName, ())
  ofRow := fun (publisherId, topicName, ()) => ⟨publisherId, topicName⟩

structure DisconnectFromTopicRequest where
  publisherId : ClientId
  deriving DecidableEq, Repr

instance : Structured DisconnectFromTopicRequest where
  shape := ⟨"DisconnectFromTopicRequest", [.needed "publisherId" clientId]⟩
  toRow x := (x.publisherId, ())
  ofRow := fun (publisherId, ()) => ⟨publisherId⟩

/-- Publishes a message on the topic that the publisher is bound to. -/
structure PublishMessageRequest where
  publisherId : ClientId
  message : MessageBody
  deriving DecidableEq, Repr

instance : Structured PublishMessageRequest where
  shape := ⟨"PublishMessageRequest", [.needed "publisherId" clientId, .needed "message" message]⟩
  toRow x := (x.publisherId, Flat.toRow x.message, ())
  ofRow := fun (publisherId, message, ()) => ⟨publisherId, Flat.ofRow message⟩

structure PublishMessageResponse where
  status : String
  messageId : String
  deriving DecidableEq, Repr

instance : Structured PublishMessageResponse where
  shape := ⟨"PublishMessageResponse", [.needed "status" text, .orElse "messageId" text ""]⟩
  toRow x := (x.status, x.messageId, ())
  ofRow := fun (status, messageId, ()) => ⟨status, messageId⟩

/-- Asks for the fate of a message. -/
structure CheckMessageStatusRequest where
  publisherId : ClientId
  message : MessageBody
  deriving DecidableEq, Repr

instance : Structured CheckMessageStatusRequest where
  shape :=
    ⟨"CheckMessageStatusRequest", [.needed "publisherId" clientId, .needed "message" message]⟩
  toRow x := (x.publisherId, Flat.toRow x.message, ())
  ofRow := fun (publisherId, message, ()) => ⟨publisherId, Flat.ofRow message⟩

/-! ## Subscribers -/

structure SubscribeToTopicRequest where
  subscriberId : ClientId
  topicName : String
  deriving DecidableEq, Repr

instance : Structured SubscribeToTopicRequest where
  shape := ⟨"SubscribeToTopicRequest", [.needed "subscriberId" clientId, .needed "topicName" text]⟩
  toRow x := (x.subscriberId, x.topicName, ())
  ofRow := fun (subscriberId, topicName, ()) => ⟨subscriberId, topicName⟩

structure UnsubscribeFromTopicRequest where
  subscriberId : ClientId
  topicName : String
  deriving DecidableEq, Repr

instance : Structured UnsubscribeFromTopicRequest where
  shape :=
    ⟨"UnsubscribeFromTopicRequest", [.needed "subscriberId" clientId, .needed "topicName" text]⟩
  toRow x := (x.subscriberId, x.topicName, ())
  ofRow := fun (subscriberId, topicName, ()) => ⟨subscriberId, topicName⟩

/-- Asks for the names of the topics that a subscriber is subscribed to. -/
structure GetSubscribedTopicsRequest where
  subscriberId : ClientId
  deriving DecidableEq, Repr

instance : Structured GetSubscribedTopicsRequest where
  shape := ⟨"GetSubscribedTopicsRequest", [.needed "subscriberId" clientId]⟩
  toRow x := (x.subscriberId, ())
  ofRow := fun (subscriberId, ()) => ⟨subscriberId⟩

structure GetSubscribedTopicsResponse where
  topics : List String
  deriving DecidableEq, Repr

instance : Structured GetSubscribedTopicsResponse where
  shape := ⟨"GetSubscribedTopicsResponse", [.orElse "topics" texts []]⟩
  toRow x := (x.topics, ())
  ofRow := fun (topics, ()) => ⟨topics⟩

structure GetMessageFromTopicRequest where
  subscriberId : ClientId
  topicName : String
  deriving DecidableEq, Repr

instance : Structured GetMessageFromTopicRequest where
  shape :=
    ⟨"GetMessageFromTopicRequest", [.needed "subscriberId" clientId, .needed "topicName" text]⟩
  toRow x := (x.subscriberId, x.topicName, ())
  ofRow := fun (subscriberId, topicName, ()) => ⟨subscriberId, topicName⟩

/-- The message that was taken, if the topic had one. -/
structure GetMessageFromTopicResponse where
  message : Option MessageBody
  deriving DecidableEq, Repr

instance : Structured GetMessageFromTopicResponse where
  shape := ⟨"GetMessageFromTopicResponse", [.optional "message" message]⟩
  toRow x := (x.message.map Flat.toRow, ())
  ofRow := fun (message, ()) => ⟨message.map Flat.ofRow⟩
  ofRow_toRow x := by obtain ⟨_ | m⟩ := x <;> rfl

/-! ## Outcomes -/

/-- Tells the outcome of a request that has nothing else to tell. -/
structure StatusResponse where
  status : String
  deriving DecidableEq, Repr

instance : Structured StatusResponse where
  shape := ⟨"StatusResponse", [.needed "status" text]⟩
  toRow x := (x.status, ())
  ofRow := fun (status, ()) => ⟨status⟩

namespace Status

/-- The connection, or the binding, was made. -/
def connected : String := "connected"

def disconnected : String := "disconnected"

def successful : String := "successful"

def subscribed : String := "subscribed"

end Status

end TopicBroker.Wire
