import TopicBroker.Proofs.Error
import TopicBroker.Proofs.Text.Utf8
import TopicBroker.Proofs.Wire.Records
import TopicBroker.Router

/-! # The records of responses

Each call has a record that tells its answer. A response brings that record, or it reports an error,
never both. -/

namespace TopicBroker.Router

open Record Wire

/-- The record that the response to a call brings. -/
abbrev ResponseOf : ServiceCall → Type
  | .listTopics => ShowTopicResponse
  | .registerPublisher .. => StatusResponse
  | .deregisterPublisher _ => StatusResponse
  | .publish .. => PublishMessageResponse
  | .registerSubscriber .. => StatusResponse
  | .deregisterSubscriber .. => StatusResponse
  | .listSubscriptions _ => GetSubscribedTopicsResponse
  | .readMessage .. => GetMessageFromTopicResponse

instance : (call : ServiceCall) → Structured (ResponseOf call)
  | .listTopics => inferInstanceAs (Structured ShowTopicResponse)
  | .registerPublisher .. => inferInstanceAs (Structured StatusResponse)
  | .deregisterPublisher _ => inferInstanceAs (Structured StatusResponse)
  | .publish .. => inferInstanceAs (Structured PublishMessageResponse)
  | .registerSubscriber .. => inferInstanceAs (Structured StatusResponse)
  | .deregisterSubscriber .. => inferInstanceAs (Structured StatusResponse)
  | .listSubscriptions _ => inferInstanceAs (Structured GetSubscribedTopicsResponse)
  | .readMessage .. => inferInstanceAs (Structured GetMessageFromTopicResponse)

/-- The record that tells the answer to a call. -/
def responseTo : (call : ServiceCall) → call.Answer → ResponseOf call
  | .listTopics, topics => ⟨topics⟩
  | .registerPublisher .., () => ⟨"connected"⟩
  | .deregisterPublisher _, () => ⟨"disconnected"⟩
  | .publish .., messageId => ⟨"successful", messageId⟩
  | .registerSubscriber .., () => ⟨"subscribed"⟩
  | .deregisterSubscriber .., () => ⟨"successful"⟩
  | .listSubscriptions _, topics => ⟨topics⟩
  | .readMessage .., message => ⟨message.map fun m => ⟨m.payload, m.createdAt, m.expiresAt⟩⟩

theorem body_eq (format : ContentType) (call : ServiceCall) (answer : call.Answer) :
    call.body format answer = format.encode (responseTo call answer) := by
  cases call <;> rfl

theorem exact_responseOf (call : ServiceCall) :
    (Structured.shape (ResponseOf call)).Exact Kind.Exact := by
  have hstatus : (Structured.shape StatusResponse).Exact Kind.Exact := by decide
  cases call with
  | listTopics => decide
  | registerPublisher | deregisterPublisher | registerSubscriber | deregisterSubscriber =>
      exact hstatus
  | publish =>
      have hpublish : (Structured.shape PublishMessageResponse).Exact Kind.Exact := by decide
      exact hpublish
  | listSubscriptions =>
      have htopics : (Structured.shape GetSubscribedTopicsResponse).Exact Kind.Exact := by decide
      exact htopics
  | readMessage =>
      have hmessage : (Structured.shape GetMessageFromTopicResponse).Exact Kind.Exact := by decide
      exact hmessage

@[simp] theorem isError_ok (body : String) : (Response.ok body).isError = false := by
  simp [Response.isError, Response.ok]

@[simp] theorem bodyText_ok (body : String) : (Response.ok body).bodyText = .ok body := by
  simp [Response.bodyText, Response.ok]

@[simp] theorem isError_ofError (error : BrokerError) :
    (Response.ofError error).isError = true := by
  simp [Response.isError, Response.ofError, error.message_ne_empty]

end TopicBroker.Router
