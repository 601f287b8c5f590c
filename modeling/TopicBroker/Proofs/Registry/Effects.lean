import TopicBroker.Proofs.Engine.Records
import TopicBroker.Proofs.Registry.Operations

/-! # Everything that a call can do

One case for each outcome of a call, with what it answers and what it leaves behind. A call starts
from the state that it finds, or from the one in which the engine has carried out what others sent
it before. -/

namespace TopicBroker.Registry

open TopicBroker.Action

/-- What a call answers and leaves behind, from where it starts. -/
inductive Effect (conditions : Conditions) (start : Broker) :
    (call : ServiceCall) → Except BrokerError call.Answer → Broker → Prop where
  /-- A call that fails does nothing, but for the two that have a case of their own. -/
  | nothing (call : ServiceCall) (error : BrokerError) :
      Effect conditions start call (.error error) start
  | listTopics : Effect conditions start .listTopics (.ok start.store.topicNames) start
  | registerPublisher {publisher : ClientId} {topicName topicId : String}
      (known : start.store.topicId? topicName = some topicId) :
      Effect conditions start (.registerPublisher publisher topicName) (.ok ())
        { start with store := start.store.bind publisher topicId }
  | deregisterPublisher {publisher : ClientId} {topicId : String}
      (bound : start.store.publisher publisher = .bound topicId) :
      Effect conditions start (.deregisterPublisher publisher) (.ok ())
        { start with store := start.store.unbind publisher }
  | publish (publication : Publication) (submits : Submits conditions start publication) :
      Effect conditions start (.publish publication.publisher publication.draft)
        (.ok publication.message.id)
        { enqueued publication start with
          store := start.store.logMessage publication.publisher publication.topicId
            publication.message }
  /-- A message that could not be logged stays in line. -/
  | unlogged (publication : Publication) {error : BrokerError}
      (submits : Submits conditions start publication)
      (fault : conditions.fault .insertMessage = some error) :
      Effect conditions start (.publish publication.publisher publication.draft) (.error error)
        (enqueued publication start)
  | subscribed {subscriber : ClientId} {topicName : String}
      (listed : topicName ∈ start.store.subscribedTopics subscriber) :
      Effect conditions start (.registerSubscriber subscriber topicName) (.ok ()) start
  | registerSubscriber {subscriber : ClientId} {topicName topicId : String}
      (unlisted : topicName ∉ start.store.subscribedTopics subscriber)
      (known : start.store.topicId? topicName = some topicId) :
      Effect conditions start (.registerSubscriber subscriber topicName) (.ok ())
        { start with store := (start.store.addSubscriber subscriber).subscribe subscriber topicId }
  /-- A subscriber that could not be subscribed may be known from then on. -/
  | halfSubscribed {subscriber : ClientId} {topicName : String} {error : BrokerError}
      (fault : conditions.fault .insertSubscription = some error) :
      Effect conditions start (.registerSubscriber subscriber topicName) (.error error)
        { start with store := start.store.addSubscriber subscriber }
  | deregisterSubscriber {subscriber : ClientId} {topicName topicId : String}
      (known : start.store.topicId? topicName = some topicId) :
      Effect conditions start (.deregisterSubscriber subscriber topicName) (.ok ())
        { start with store := start.store.unsubscribe subscriber topicId }
  | listSubscriptions {subscriber : ClientId} :
      Effect conditions start (.listSubscriptions subscriber)
        (.ok (start.store.subscribedTopics subscriber)) start
  | readMessage {subscriber : ClientId} {topicName topicId : String}
      (known : start.store.topicId? topicName = some topicId) :
      Effect conditions start (.readMessage subscriber topicName)
        (.ok (start.engine.queues.retrieve topicId conditions.now).1)
        (Engine.mapQueues (fun queues => (queues.retrieve topicId conditions.now).2) start)

/-- The call starts from one of the states that it may start from, and does one of the things that
it can do. -/
def Carries (conditions : Conditions) (before : Broker) (call : ServiceCall)
    (outcome : Except BrokerError call.Answer × Broker) : Prop :=
  ∃ start, Engine.Starts conditions before start ∧
    Effect conditions start call outcome.1 outcome.2

variable {conditions : Conditions} {before : Broker}

theorem carries_found {call : ServiceCall} {outcome : Except BrokerError call.Answer × Broker}
    (h : Effect conditions before call outcome.1 outcome.2) :
    Carries conditions before call outcome :=
  ⟨before, .found, h⟩

/-! ## Topics by name -/

theorem perform_resolve (conditions : Conditions) (before : Broker) (name : String) :
    (∃ topicId, before.store.topicId? name = some topicId ∧
      (resolve name).perform conditions before = (.ok topicId, before)) ∨
      ∃ error, (resolve name).perform conditions before = (.error error, before) := by
  simp only [resolve, Storage.findTopic, perform_bind, Storage.perform_look]
  cases conditions.fault .findTopic with
  | some error => exact .inr ⟨error, rfl⟩
  | none =>
      cases htopic : before.store.topicId? name with
      | none => exact .inr ⟨_, rfl⟩
      | some topicId => exact .inl ⟨topicId, rfl, rfl⟩

/-! ## Calls -/

theorem carries_registerPublisher (publisher : ClientId) (topicName : String) :
    Carries conditions before (.registerPublisher publisher topicName)
      ((registerPublisher publisher topicName).perform conditions before) := by
  rw [registerPublisher, perform_bind]
  rcases perform_resolve conditions before topicName with ⟨topicId, hknown, hperform⟩ |
    ⟨error, hperform⟩
  · simp only [hperform, perform_bind, Storage.findPublisher, Storage.perform_look]
    cases conditions.fault .findPublisher with
    | some error => exact carries_found (.nothing _ error)
    | none =>
        cases before.store.publisher publisher with
        | missing =>
            simp only [Storage.insertPublisher, Storage.perform_change]
            cases conditions.fault .insertPublisher with
            | some error => exact carries_found (.nothing _ error)
            | none => exact carries_found (.registerPublisher hknown)
        | unbound | bound =>
            simp only [Storage.updatePublisher, Storage.perform_change]
            cases conditions.fault .updatePublisher with
            | some error => exact carries_found (.nothing _ error)
            | none => exact carries_found (.registerPublisher hknown)
  · simp only [hperform]
    exact carries_found (.nothing _ error)

theorem carries_deregisterPublisher (publisher : ClientId) :
    Carries conditions before (.deregisterPublisher publisher)
      ((deregisterPublisher publisher).perform conditions before) := by
  simp only [deregisterPublisher, Storage.findPublisher, perform_bind, Storage.perform_look]
  cases conditions.fault .findPublisher with
  | some error => exact carries_found (.nothing _ error)
  | none =>
      cases hbound : before.store.publisher publisher with
      | missing | unbound => exact carries_found (.nothing _ _)
      | bound topicId =>
          simp only [PublisherRecord.topicId?, Storage.clearPublisher, Storage.perform_change]
          cases conditions.fault .clearPublisher with
          | some error => exact carries_found (.nothing _ error)
          | none => exact carries_found (.deregisterPublisher hbound)

theorem carries_registerSubscriber (subscriber : ClientId) (topicName : String) :
    Carries conditions before (.registerSubscriber subscriber topicName)
      ((registerSubscriber subscriber topicName).perform conditions before) := by
  simp only [registerSubscriber, Storage.listSubscriptions, perform_bind, Storage.perform_look]
  cases conditions.fault .listSubscriptions with
  | some error => exact carries_found (.nothing _ error)
  | none =>
      by_cases hlisted : topicName ∈ before.store.subscribedTopics subscriber
      · simp only [List.contains_iff_mem.mpr hlisted, if_true]
        exact carries_found (.subscribed hlisted)
      · have hcontains : (before.store.subscribedTopics subscriber).contains topicName = false := by
          simpa using hlisted
        simp only [hcontains, Bool.false_eq_true, if_false, perform_bind]
        rcases perform_resolve conditions before topicName with ⟨topicId, hknown, hperform⟩ |
          ⟨error, hperform⟩
        · simp only [hperform, Storage.insertSubscriber, Storage.insertSubscription,
            Storage.perform_change]
          cases conditions.fault .insertSubscriber with
          | some error => exact carries_found (.nothing _ error)
          | none =>
              cases hfault : conditions.fault .insertSubscription with
              | some error => exact carries_found (.halfSubscribed hfault)
              | none => exact carries_found (.registerSubscriber hlisted hknown)
        · simp only [hperform]
          exact carries_found (.nothing _ error)

theorem carries_deregisterSubscriber (subscriber : ClientId) (topicName : String) :
    Carries conditions before (.deregisterSubscriber subscriber topicName)
      ((deregisterSubscriber subscriber topicName).perform conditions before) := by
  rw [deregisterSubscriber, perform_bind]
  rcases perform_resolve conditions before topicName with ⟨topicId, hknown, hperform⟩ |
    ⟨error, hperform⟩
  · simp only [hperform, Storage.removeSubscription, Storage.perform_change]
    cases conditions.fault .removeSubscription with
    | some error => exact carries_found (.nothing _ error)
    | none => exact carries_found (.deregisterSubscriber hknown)
  · simp only [hperform]
    exact carries_found (.nothing _ error)

theorem carries_readMessage (subscriber : ClientId) (topicName : String) :
    Carries conditions before (.readMessage subscriber topicName)
      ((readMessage subscriber topicName).perform conditions before) := by
  rw [readMessage, perform_bind]
  rcases perform_resolve conditions before topicName with ⟨topicId, hknown, hperform⟩ |
    ⟨error, hperform⟩
  · obtain ⟨start, hstarts, hretrieve | ⟨error, hretrieve⟩⟩ :=
      Engine.exists_starts_retrieve conditions topicId before
    · have hknown' : start.store.topicId? topicName = some topicId :=
        (congrArg (·.1.topicId? topicName) hstarts.records_eq).trans hknown
      simp only [hperform, hretrieve]
      exact ⟨start, hstarts, .readMessage hknown'⟩
    · simp only [hperform, hretrieve]
      exact ⟨start, hstarts, .nothing _ error⟩
  · simp only [hperform]
    exact carries_found (.nothing _ error)

theorem carries_publish (publisher : ClientId) (draft : Draft) :
    Carries conditions before (.publish publisher draft)
      ((publish publisher draft).perform conditions before) := by
  simp only [publish, Storage.findPublisher, perform_bind, Storage.perform_look]
  cases conditions.fault .findPublisher with
  | some error => exact carries_found (.nothing _ error)
  | none =>
      cases hbound : before.store.publisher publisher with
      | missing | unbound => exact carries_found (.nothing _ _)
      | bound topicId =>
          simp only [PublisherRecord.topicId?, perform_bind, perform_read, perform_get,
            perform_liftExcept]
          cases hstamp : stamp conditions.now before.defaultTtl (conditions.fresh 0) draft with
          | error error => exact carries_found (.nothing _ error)
          | ok message =>
              dsimp only
              obtain ⟨start, hstarts, henqueue | ⟨error, henqueue⟩⟩ :=
                Engine.exists_starts_enqueue conditions topicId message before
              · let publication : Publication := ⟨publisher, draft, topicId, message⟩
                have hsubmits : Submits conditions start publication := by
                  refine ⟨?_, ?_⟩
                  · exact (congrArg (·.1.publisher publisher) hstarts.records_eq).trans hbound
                  · have httl : start.defaultTtl = before.defaultTtl :=
                      congrArg Prod.snd hstarts.records_eq
                    rw [httl]
                    exact stamped_of_stamp hstamp
                simp only [henqueue, Storage.insertMessage, Storage.perform_change]
                cases hfault : conditions.fault .insertMessage with
                | some error =>
                    exact ⟨start, hstarts, .unlogged publication hsubmits hfault⟩
                | none => exact ⟨start, hstarts, .publish publication hsubmits⟩
              · simp only [henqueue]
                exact ⟨start, hstarts, .nothing _ error⟩

theorem carries_carryOut (conditions : Conditions) (before : Broker) (call : ServiceCall) :
    Carries conditions before call ((carryOut call).perform conditions before) := by
  cases call with
  | listTopics =>
      change Carries conditions before .listTopics (Storage.listTopics.perform conditions before)
      rw [Storage.listTopics, Storage.perform_look]
      cases conditions.fault .listTopics with
      | some error => exact carries_found (.nothing _ error)
      | none => exact carries_found .listTopics
  | registerPublisher publisher topicName => exact carries_registerPublisher publisher topicName
  | deregisterPublisher publisher => exact carries_deregisterPublisher publisher
  | publish publisher draft => exact carries_publish publisher draft
  | registerSubscriber subscriber topicName =>
      exact carries_registerSubscriber subscriber topicName
  | deregisterSubscriber subscriber topicName =>
      exact carries_deregisterSubscriber subscriber topicName
  | listSubscriptions subscriber =>
      change Carries conditions before (.listSubscriptions subscriber)
        ((Storage.listSubscriptions subscriber).perform conditions before)
      rw [Storage.listSubscriptions, Storage.perform_look]
      cases conditions.fault .listSubscriptions with
      | some error => exact carries_found (.nothing _ error)
      | none => exact carries_found .listSubscriptions
  | readMessage subscriber topicName => exact carries_readMessage subscriber topicName

/-! ## What no call touches -/

theorem exists_unbind_eq (client : ClientId) (store : Store) :
    ∃ publishers, store.unbind client = { store with publishers } := by
  unfold Store.unbind
  split
  · exact ⟨_, rfl⟩
  · exact ⟨store.publishers, rfl⟩

/-- What no call touches: the topics, the checkpoint and what waits for the engine. -/
def fixed (broker : Broker) :
    Table String × Table String × Table String × Table String × List Command :=
  (broker.store.topics, broker.store.names, broker.store.live, broker.store.dead,
    broker.engine.mailbox)

theorem fixed_of_effect {start after : Broker} {call : ServiceCall}
    {answer : Except BrokerError call.Answer} (h : Effect conditions start call answer after) :
    fixed after = fixed start := by
  cases h with
  | deregisterPublisher =>
      obtain ⟨publishers, hunbind⟩ := exists_unbind_eq _ start.store
      rw [hunbind]
      rfl
  | _ => rfl

end TopicBroker.Registry
