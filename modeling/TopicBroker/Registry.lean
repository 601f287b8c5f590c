import TopicBroker.Engine

/-!
# The registry of topics

What clients may ask of the broker, in terms of storage and queues. A publisher is bound to at most
one topic, and binding it again replaces the binding. A subscriber may be subscribed to any number
of topics. A message that is published is queued first and logged next; if it cannot be logged it
stays queued.
-/

namespace TopicBroker.Registry

def resolve (name : String) : Action String := do
  match ← Storage.findTopic name with
  | some topicId => return topicId
  | none => throw (.notFound ("topic '" ++ name ++ "' not found"))

def given? (text : Option String) : Option String :=
  text.filter fun text => !Text.isAllBlank text

/-- The time that a draft was created at, which is now unless it says so. -/
def creation (now : Instant) (draft : Draft) : Except BrokerError Instant :=
  match given? draft.createdAt with
  | some raw => Timestamp.parse raw
  | none => .ok now

/-- The time that a draft expires at, which is a span after its creation unless it says so. -/
def expiry (created : Instant) (ttl : Span) (draft : Draft) : Except BrokerError Instant :=
  match given? draft.expiresAt with
  | some raw => Timestamp.parse raw
  | none =>
    match created.later? ttl with
    | some expires => .ok expires
    | none => .error (.invalidArgument "message ttl out of range")

/-- The message of a draft, with its times filled in and set out in the usual way. -/
def stamp (now : Instant) (ttl : Span) (id : String) (draft : Draft) :
    Except BrokerError Message := do
  let created ← creation now draft
  let expires ← expiry created ttl draft
  .ok ⟨id, draft.data, Timestamp.format created, Timestamp.format expires⟩

def listTopics : Action (List String) :=
  Storage.listTopics

def registerPublisher (publisher : ClientId) (topicName : String) : Action Unit := do
  let topicId ← resolve topicName
  match ← Storage.findPublisher publisher with
  | .missing => Storage.insertPublisher publisher topicId
  | .unbound | .bound _ => Storage.updatePublisher publisher topicId

def deregisterPublisher (publisher : ClientId) : Action Unit := do
  match (← Storage.findPublisher publisher).topicId? with
  | none => throw (.notFound "publisher is not registered with any topic")
  | some _ => Storage.clearPublisher publisher

/-- Publishes a draft on the topic that the publisher is bound to, and tells its id. -/
def publish (publisher : ClientId) (draft : Draft) : Action String := do
  match (← Storage.findPublisher publisher).topicId? with
  | none => throw (.failedPrecondition "not registered to any topic")
  | some topicId =>
    let conditions ← read
    let broker ← get
    let message ← stamp conditions.now broker.defaultTtl (conditions.fresh 0) draft
    Engine.enqueue topicId message
    Storage.insertMessage publisher topicId message
    return message.id

/-- Subscribes a subscriber to a topic. A subscription that is there already is enough. -/
def registerSubscriber (subscriber : ClientId) (topicName : String) : Action Unit := do
  let subscribed ← Storage.listSubscriptions subscriber
  unless subscribed.contains topicName do
    let topicId ← resolve topicName
    Storage.insertSubscriber subscriber
    Storage.insertSubscription subscriber topicId

def deregisterSubscriber (subscriber : ClientId) (topicName : String) : Action Unit := do
  let topicId ← resolve topicName
  Storage.removeSubscription subscriber topicId

def listSubscriptions (subscriber : ClientId) : Action (List String) :=
  Storage.listSubscriptions subscriber

def readMessage (_subscriber : ClientId) (topicName : String) : Action (Option Message) := do
  let topicId ← resolve topicName
  Engine.retrieve topicId

end TopicBroker.Registry
