import TopicBroker.Proofs.Registry.Publication

/-! # Operations of the registry that fail

Nothing that a client can see is different behind an operation that failed, but for one case: a
message that could not be logged stays in line. An operation changes what can be seen in its last
part only; publishing is the one that changes it in two. -/

namespace TopicBroker.Registry

open TopicBroker.Action

variable {conditions : Conditions} {broker : Broker}

/-- The broker without the list of those who ever subscribed, which nobody is told. -/
def visible (broker : Broker) : Broker :=
  { broker with store := { broker.store with subscribers := .empty } }

/-! ## All or nothing -/

theorem allOrNothing_registerPublisher (publisher : ClientId) (topicName : String) :
    AllOrNothing visible (registerPublisher publisher topicName) := by
  refine allOrNothing_bind (keeps_resolve topicName) ?_
  intro topicId
  refine allOrNothing_bind (keeps_look _ _) ?_
  intro record
  cases record <;> exact allOrNothing_change _ _

theorem allOrNothing_deregisterPublisher (publisher : ClientId) :
    AllOrNothing visible (deregisterPublisher publisher) := by
  refine allOrNothing_bind (keeps_look _ _) ?_
  intro record
  cases record.topicId?
  · exact (keeps_throw _).allOrNothing
  · exact allOrNothing_change _ _

/-- Of the two changes that a subscription makes the first is not seen. -/
theorem allOrNothing_registerSubscriber (subscriber : ClientId) (topicName : String) :
    AllOrNothing visible (registerSubscriber subscriber topicName) := by
  refine allOrNothing_bind (keeps_look _ _) ?_
  intro subscribed
  split
  · exact (keeps_pure _).allOrNothing
  · refine allOrNothing_bind (keeps_resolve topicName) ?_
    intro topicId
    exact allOrNothing_bind (keeps_change _ fun _ => rfl) fun _ => allOrNothing_change _ _

theorem allOrNothing_deregisterSubscriber (subscriber : ClientId) (topicName : String) :
    AllOrNothing visible (deregisterSubscriber subscriber topicName) :=
  allOrNothing_bind (keeps_resolve topicName) fun _ => allOrNothing_change _ _

/-- A retrieve fails only if the engine does not run, and then it does not reach the engine. -/
theorem allOrNothing_retrieve (topicId : String) :
    AllOrNothing visible (Engine.retrieve topicId) := by
  intro conditions broker error next hperform
  rw [Engine.retrieve, Engine.perform_call_settled] at hperform
  cases hrunning : broker.engine.running <;> rw [hrunning] at hperform
  · cases hperform
    rfl
  · rw [if_pos rfl, Engine.perform_retrieve] at hperform
    cases hperform

theorem allOrNothing_readMessage (subscriber : ClientId) (topicName : String) :
    AllOrNothing visible (readMessage subscriber topicName) :=
  allOrNothing_bind (keeps_resolve topicName) allOrNothing_retrieve

/-! ## Publishing -/

/-- The message of a publication could not be logged. It is in line behind the others of its topic,
and that is all. -/
structure Unlogged (conditions : Conditions) (before start after : Broker) (error : BrokerError)
    (publication : Publication) : Prop where
  submits : Submits conditions before publication
  fault : conditions.fault .insertMessage = some error
  after_eq : after = enqueued publication start
  queue : ∀ topicId, after.queue topicId =
    if topicId = publication.topicId then
      { start.queue topicId with live := (start.queue topicId).live ++ [publication.message] }
    else start.queue topicId

/-- A message that is queued and then logged is not queued, or is queued and not logged. -/
theorem queueAndLog_failure {publisher : ClientId} {topicId : String} {message : Message}
    {error : BrokerError} {next : Broker}
    (h : (do
        Engine.enqueue topicId message
        Storage.insertMessage publisher topicId message
        return message.id : Action String).perform conditions broker = (.error error, next)) :
    ∃ start, Engine.Starts conditions broker start ∧
      (next = start ∨ conditions.fault .insertMessage = some error ∧
        next = Engine.mapQueues (·.enqueue topicId message) start) := by
  obtain ⟨start, hstarts, henqueue | ⟨fault, henqueue⟩⟩ :=
    Engine.exists_starts_enqueue conditions topicId message broker
  · simp only [perform_bind, henqueue, Storage.insertMessage, Storage.perform_change] at h
    cases hlog : conditions.fault .insertMessage with
    | none =>
        simp only [hlog] at h
        cases h
    | some fault =>
        simp only [hlog] at h
        cases h
        exact ⟨start, hstarts, .inr ⟨rfl, rfl⟩⟩
  · simp only [perform_bind, henqueue] at h
    cases h
    exact ⟨_, hstarts, .inl rfl⟩

/-- Publishing fails before the message is in line, or for want of a log. -/
theorem publish_failure {publisher : ClientId} {draft : Draft} {error : BrokerError} {next : Broker}
    (h : (publish publisher draft).perform conditions broker = (.error error, next)) :
    ∃ start, Engine.Starts conditions broker start ∧
      (next = start ∨ ∃ publication, publication.publisher = publisher ∧
        publication.draft = draft ∧ Unlogged conditions broker start next error publication) := by
  simp only [publish, Storage.findPublisher, perform_bind, Storage.perform_look] at h
  cases hfind : conditions.fault .findPublisher with
  | some fault =>
      simp only [hfind] at h
      cases h
      exact ⟨_, .found, .inl rfl⟩
  | none =>
      simp only [hfind] at h
      cases hbound : broker.store.publisher publisher with
      | missing | unbound =>
          simp only [hbound, PublisherRecord.topicId?, perform_throw] at h
          cases h
          exact ⟨_, .found, .inl rfl⟩
      | bound topicId =>
          simp only [hbound, PublisherRecord.topicId?] at h
          -- Up to here nothing was changed, and what is left is the one part with two changes.
          cases hstamp : stamp conditions.now broker.defaultTtl (conditions.fresh 0) draft with
          | error fault =>
              simp only [perform_bind, perform_read, perform_get, perform_liftExcept, hstamp] at h
              cases h
              exact ⟨_, .found, .inl rfl⟩
          | ok message =>
              rw [perform_bind, perform_read] at h
              dsimp only at h
              rw [perform_bind, perform_get] at h
              dsimp only at h
              rw [perform_bind, perform_liftExcept, hstamp] at h
              obtain ⟨start, hstarts, heq | ⟨hlog, heq⟩⟩ := queueAndLog_failure h
              · exact ⟨start, hstarts, .inl heq⟩
              · let publication : Publication := ⟨publisher, draft, topicId, message⟩
                subst heq
                exact ⟨start, hstarts, .inr ⟨publication, rfl, rfl,
                  ⟨hbound, stamped_of_stamp hstamp⟩, hlog, rfl, queue_enqueued publication start⟩⟩

/-! ## Calls -/

/-- Two states look the same to clients. -/
structure Unchanged (before after : Broker) : Prop where
  topics : after.store.topics = before.store.topics ∧ after.store.names = before.store.names
  publishers : ∀ publisher, after.store.publisher publisher = before.store.publisher publisher
  subscriptions : ∀ subscriber,
    after.store.subscribedTopics subscriber = before.store.subscribedTopics subscriber
  log : after.store.log = before.store.log
  checkpoint : after.store.live = before.store.live ∧ after.store.dead = before.store.dead
  queue : ∀ topicId, after.queue topicId = before.queue topicId
  engine : after.engine = before.engine

theorem unchanged_of_visible {before after : Broker} (h : visible after = visible before) :
    Unchanged before after where
  topics := ⟨congrArg (·.store.topics) h, congrArg (·.store.names) h⟩
  publishers publisher := congrArg (·.store.publisher publisher) h
  subscriptions subscriber := congrArg (·.store.subscribedTopics subscriber) h
  log := congrArg (·.store.log) h
  checkpoint := ⟨congrArg (·.store.live) h, congrArg (·.store.dead) h⟩
  queue topicId := congrArg (·.queue topicId) h
  engine := congrArg (·.engine) h

/-- What a call that failed has left behind, from where it started. -/
def LeavesBehind (conditions : Conditions) (before : Broker) (call : ServiceCall)
    (error : BrokerError) (after : Broker) : Prop :=
  ∃ start, Engine.Starts conditions before start ∧
    (Unchanged start after ∨ ∃ publication,
      call = .publish publication.publisher publication.draft ∧
        Unlogged conditions before start after error publication)

theorem leavesBehind_of_allOrNothing {α : Type} {action : Action α}
    (h : AllOrNothing visible action) {call : ServiceCall} {error : BrokerError} {next : Broker}
    (hperform : action.perform conditions broker = (.error error, next)) :
    LeavesBehind conditions broker call error next :=
  ⟨broker, .found, .inl (unchanged_of_visible (h conditions broker error next hperform))⟩

/-- A call that fails changes nothing that can be seen, unless it is to publish and fails at the
log. -/
theorem carryOut_failure {call : ServiceCall} {error : BrokerError} {next : Broker}
    (h : (carryOut call).perform conditions broker = (.error error, next)) :
    LeavesBehind conditions broker call error next := by
  cases call with
  | listTopics =>
      have hlook : Keeps visible listTopics := keeps_look _ _
      exact leavesBehind_of_allOrNothing hlook.allOrNothing h
  | registerPublisher publisher topicName =>
      exact leavesBehind_of_allOrNothing (allOrNothing_registerPublisher publisher topicName) h
  | deregisterPublisher publisher =>
      exact leavesBehind_of_allOrNothing (allOrNothing_deregisterPublisher publisher) h
  | publish publisher draft =>
      obtain ⟨start, hstarts, rfl | ⟨publication, rfl, rfl, hunlogged⟩⟩ := publish_failure h
      · exact ⟨next, hstarts, .inl (unchanged_of_visible rfl)⟩
      · exact ⟨start, hstarts, .inr ⟨publication, rfl, hunlogged⟩⟩
  | registerSubscriber subscriber topicName =>
      exact leavesBehind_of_allOrNothing (allOrNothing_registerSubscriber subscriber topicName) h
  | deregisterSubscriber subscriber topicName =>
      exact leavesBehind_of_allOrNothing (allOrNothing_deregisterSubscriber subscriber topicName) h
  | listSubscriptions subscriber =>
      have hlook : Keeps visible (listSubscriptions subscriber) := keeps_look _ _
      exact leavesBehind_of_allOrNothing hlook.allOrNothing h
  | readMessage subscriber topicName =>
      exact leavesBehind_of_allOrNothing (allOrNothing_readMessage subscriber topicName) h

end TopicBroker.Registry
