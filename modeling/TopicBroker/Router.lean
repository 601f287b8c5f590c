import TopicBroker.Registry
import TopicBroker.Wire.Codec
import TopicBroker.Wire.Envelope
import TopicBroker.Wire.Method

/-!
# Routing

A frame asks for one call of a service. `plan` checks a frame and tells the call, without making it;
`route` makes the call and writes its outcome as a response in the format of the request. Every frame
is answered, whatever is wrong with it.
-/

namespace TopicBroker

open Wire

/-! ## Services -/

inductive ServiceCall where
  | listTopics
  | registerPublisher (publisher : ClientId) (topicName : String)
  | deregisterPublisher (publisher : ClientId)
  | publish (publisher : ClientId) (draft : Draft)
  | registerSubscriber (subscriber : ClientId) (topicName : String)
  | deregisterSubscriber (subscriber : ClientId) (topicName : String)
  | listSubscriptions (subscriber : ClientId)
  | readMessage (subscriber : ClientId) (topicName : String)
  deriving DecidableEq, Repr

namespace ServiceCall

abbrev Answer : ServiceCall → Type
  | listTopics => List String
  | registerPublisher .. => Unit
  | deregisterPublisher _ => Unit
  | publish .. => String
  | registerSubscriber .. => Unit
  | deregisterSubscriber .. => Unit
  | listSubscriptions _ => List String
  | readMessage .. => Option Message

def body (format : ContentType) : (call : ServiceCall) → call.Answer → String
  | listTopics, topics => format.encode (ShowTopicResponse.mk topics)
  | registerPublisher .., () => format.encode (StatusResponse.mk Status.connected)
  | deregisterPublisher _, () => format.encode (StatusResponse.mk Status.disconnected)
  | publish .., messageId =>
    format.encode (PublishMessageResponse.mk Status.successful messageId)
  | registerSubscriber .., () => format.encode (StatusResponse.mk Status.subscribed)
  | deregisterSubscriber .., () => format.encode (StatusResponse.mk Status.successful)
  | listSubscriptions _, topics => format.encode (GetSubscribedTopicsResponse.mk topics)
  | readMessage .., message =>
    format.encode (GetMessageFromTopicResponse.mk (message.map MessageBody.of))

end ServiceCall

abbrev Service (m : Type → Type) :=
  (call : ServiceCall) → m (Except BrokerError call.Answer)

def Registry.carryOut : (call : ServiceCall) → Action call.Answer
  | .listTopics => listTopics
  | .registerPublisher publisher topicName => registerPublisher publisher topicName
  | .deregisterPublisher publisher => deregisterPublisher publisher
  | .publish publisher draft => Registry.publish publisher draft
  | .registerSubscriber subscriber topicName => registerSubscriber subscriber topicName
  | .deregisterSubscriber subscriber topicName => deregisterSubscriber subscriber topicName
  | .listSubscriptions subscriber => listSubscriptions subscriber
  | .readMessage subscriber topicName => readMessage subscriber topicName

/-- The registry as a service, under given conditions. -/
def Registry.service (conditions : Conditions) : Service (StateM Broker) :=
  fun call => (carryOut call).perform conditions

/-! ## Frames -/

namespace Router

/-- The draft of a message that was sent. Times that were left out are blank, and so count as not
given. -/
def draftOf (message : MessageBody) : Draft :=
  ⟨message.data, some message.createdAt, some message.expiresAt⟩

def callOf (format : ContentType) (body : String) : Method → Except BrokerError ServiceCall
  | .showTopic => do
    let _ : ShowTopicRequest ← format.decode body
    .ok .listTopics
  | .connectToTopic => do
    let r : ConnectToTopicRequest ← format.decode body
    .ok (.registerPublisher r.publisherId r.topicName)
  | .disconnectFromTopic => do
    let r : DisconnectFromTopicRequest ← format.decode body
    .ok (.deregisterPublisher r.publisherId)
  | .publishMessage => do
    let r : PublishMessageRequest ← format.decode body
    .ok (.publish r.publisherId (draftOf r.message))
  | .checkMessageStatus => do
    let _ : CheckMessageStatusRequest ← format.decode body
    .error (.unimplemented "checkMessageStatusRequest is not supported")
  | .subscribeToTopic => do
    let r : SubscribeToTopicRequest ← format.decode body
    .ok (.registerSubscriber r.subscriberId r.topicName)
  | .unsubscribeFromTopic => do
    let r : UnsubscribeFromTopicRequest ← format.decode body
    .ok (.deregisterSubscriber r.subscriberId r.topicName)
  | .getSubscribedTopics => do
    let r : GetSubscribedTopicsRequest ← format.decode body
    .ok (.listSubscriptions r.subscriberId)
  | .getMessageFromTopic => do
    let r : GetMessageFromTopicRequest ← format.decode body
    .ok (.readMessage r.subscriberId r.topicName)

def requestOf (frame : String) : Except BrokerError Request :=
  (Record.fromJsonText frame).mapError fun fault =>
    .invalidArgument ("malformed request: " ++ fault.message)

def methodOf (tag : String) : Except BrokerError Method :=
  match Method.ofTag? tag with
  | some method => .ok method
  | none => .error (.unimplemented ("unknown method '" ++ tag ++ "'"))

/-- Fails if a method is not open to a role. A caller without a role may use any method. -/
def ensureAllowed (role : Option Role) (method : Method) : Except BrokerError Unit :=
  match role with
  | none => .ok ()
  | some role =>
    if method.allows role then .ok ()
    else .error (.failedPrecondition (method.tag ++ " is not available to a " ++ role.name))

/-- The call that a frame asks for, and the format to answer in. -/
def plan (role : Option Role) (frame : String) : Except BrokerError (ContentType × ServiceCall) := do
  let request ← requestOf frame
  let format ← request.header.validate
  let method ← methodOf request.header.method
  ensureAllowed role method
  let call ← callOf format request.body method
  .ok (format, call)

def route {m : Type → Type} [Monad m] (service : Service m) (role : Option Role) (frame : String) :
    m Response :=
  match plan role frame with
  | .error error => return .ofError error
  | .ok (format, call) => do
    match ← service call with
    | .ok answer => return .ok (call.body format answer)
    | .error error => return .ofError error

end Router

end TopicBroker
