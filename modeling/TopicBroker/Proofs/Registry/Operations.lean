import TopicBroker.Proofs.Engine.Commands
import TopicBroker.Router

/-! # What the operations of the registry do

Publishing and reading are the only operations that touch the queues, and publishing is the only one
that touches the log. -/

namespace TopicBroker.Registry

open TopicBroker.Action

variable {conditions : Conditions} {broker : Broker}

/-! ## Publishing -/

/-- A draft of a publisher, with the topic that it goes to and the message that is made of it. -/
structure Publication where
  publisher : ClientId
  draft : Draft
  topicId : String
  message : Message

/-- What a call puts in line, or why it puts nothing there. -/
def submission (publisher : ClientId) (draft : Draft) (conditions : Conditions) (broker : Broker) :
    Except BrokerError Publication := do
  let record ← ((Storage.findPublisher publisher).perform conditions broker).1
  match record.topicId? with
  | none => .error (.failedPrecondition "not registered to any topic")
  | some topicId =>
    let message ← stamp conditions.now broker.defaultTtl (conditions.fresh 0) draft
    ((Engine.enqueue topicId message).perform conditions broker).1
    .ok ⟨publisher, draft, topicId, message⟩

/-- The broker with the message of a publication in line. -/
def enqueued (publication : Publication) (broker : Broker) : Broker :=
  Engine.mapQueues (·.enqueue publication.topicId publication.message) broker

/-- The row of the log for a publication. -/
def Publication.row (publication : Publication) : Store.LoggedMessage :=
  .of publication.publisher publication.topicId publication.message

/-- A message is queued first and logged next. -/
theorem perform_publish (conditions : Conditions) (publisher : ClientId) (draft : Draft)
    (h : broker.engine.mailbox = []) :
    (publish publisher draft).perform conditions broker =
      match submission publisher draft conditions broker with
      | .error error => (.error error, broker)
      | .ok publication =>
        match conditions.fault .insertMessage with
        | some error => (.error error, enqueued publication broker)
        | none => (.ok publication.message.id,
            { enqueued publication broker with
              store := broker.store.logMessage publisher publication.topicId
                publication.message }) := by
  simp only [publish, submission, Storage.findPublisher, perform_bind, Storage.perform_look]
  cases hfind : conditions.fault .findPublisher with
  | some error => rfl
  | none =>
      simp only [ok_bind]
      cases htopic : (broker.store.publisher publisher).topicId? with
      | none => rfl
      | some topicId =>
          simp only [perform_bind, perform_read, perform_get, perform_liftExcept]
          cases hstamp : stamp conditions.now broker.defaultTtl (conditions.fresh 0) draft with
          | error error => rfl
          | ok message =>
              rcases Engine.perform_enqueue_call conditions topicId message h with
                henqueue | ⟨error, henqueue⟩
              · simp only [henqueue, ok_bind, Storage.insertMessage, Storage.perform_change]
                cases conditions.fault .insertMessage <;> rfl
              · simp [henqueue]

/-- The message of a draft: a new id, the data as it is, and the times that the draft gives, or
those that stand in for them, set out in the usual way. -/
structure Stamped (now : Instant) (ttl : Span) (id : String) (draft : Draft) (message : Message) :
    Prop where
  id : message.id = id
  payload : message.payload = draft.data
  times : ∃ created expires, creation now draft = .ok created ∧
    expiry created ttl draft = .ok expires ∧
    message.createdAt = Timestamp.format created ∧ message.expiresAt = Timestamp.format expires

theorem stamped_of_stamp {now : Instant} {ttl : Span} {id : String} {draft : Draft}
    {message : Message} (h : stamp now ttl id draft = .ok message) :
    Stamped now ttl id draft message := by
  obtain ⟨created, hcreated, h⟩ := exists_of_bind_eq_ok h
  obtain ⟨expires, hexpires, h⟩ := exists_of_bind_eq_ok h
  cases h
  exact ⟨rfl, rfl, created, expires, hcreated, hexpires, rfl, rfl⟩

/-- A publication goes to the topic that its publisher is bound to, and its message is made of its
draft. -/
structure Submits (conditions : Conditions) (broker : Broker) (publication : Publication) :
    Prop where
  bound : broker.store.publisher publication.publisher = .bound publication.topicId
  stamped : Stamped conditions.now broker.defaultTtl (conditions.fresh 0) publication.draft
    publication.message

theorem submits_of_submission {publisher : ClientId} {draft : Draft} {publication : Publication}
    (h : submission publisher draft conditions broker = .ok publication) :
    publication.publisher = publisher ∧ publication.draft = draft ∧
      Submits conditions broker publication := by
  obtain ⟨record, hrecord, h⟩ := exists_of_bind_eq_ok h
  rw [Storage.findPublisher, Storage.perform_look] at hrecord
  cases hfind : conditions.fault .findPublisher with
  | some error =>
      rw [hfind] at hrecord
      cases hrecord
  | none =>
      rw [hfind] at hrecord
      obtain rfl := Except.ok.inj hrecord
      cases hbound : broker.store.publisher publisher with
      | missing | unbound =>
          rw [hbound] at h
          cases h
      | bound topicId =>
          rw [hbound] at h
          obtain ⟨message, hstamp, h⟩ := exists_of_bind_eq_ok h
          obtain ⟨-, -, h⟩ := exists_of_bind_eq_ok h
          cases h
          exact ⟨rfl, rfl, hbound, stamped_of_stamp hstamp⟩

/-! ## Reading -/

/-- Reading a topic takes the next message of its queue, or fails and changes nothing. -/
theorem perform_readMessage (conditions : Conditions) (subscriber : ClientId) (topicName : String)
    (h : broker.engine.mailbox = []) :
    (∃ topicId, broker.store.topicId? topicName = some topicId ∧
      (readMessage subscriber topicName).perform conditions broker =
        (.ok (broker.engine.queues.retrieve topicId conditions.now).1,
          Engine.mapQueues (fun queues => (queues.retrieve topicId conditions.now).2) broker)) ∨
      ∃ error, (readMessage subscriber topicName).perform conditions broker =
        (.error error, broker) := by
  simp only [readMessage, resolve, Storage.findTopic, perform_bind, Storage.perform_look]
  cases hfind : conditions.fault .findTopic with
  | some error => exact .inr ⟨error, rfl⟩
  | none =>
      cases htopic : broker.store.topicId? topicName with
      | none => exact .inr ⟨_, rfl⟩
      | some topicId =>
          rcases Engine.perform_retrieve_call conditions topicId h with
            hretrieve | ⟨error, hretrieve⟩
          · exact .inl ⟨topicId, rfl, hretrieve⟩
          · exact .inr ⟨error, hretrieve⟩

/-! ## The other operations -/

/-- What only publishing and reading change, and the topics, which nothing changes. -/
def messagesAndTopics (broker : Broker) : Engine × Table String × Table String :=
  (broker.engine, broker.store.log, broker.store.topics)

theorem keeps_resolve {γ : Type} {view : Broker → γ} (name : String) :
    Keeps view (resolve name) := by
  refine keeps_bind (keeps_look _ _) ?_
  intro found
  cases found
  · exact keeps_throw _
  · exact keeps_pure _

theorem keeps_registerPublisher (publisher : ClientId) (topicName : String) :
    Keeps messagesAndTopics (registerPublisher publisher topicName) := by
  refine keeps_bind (keeps_resolve topicName) ?_
  intro topicId
  refine keeps_bind (keeps_look _ _) ?_
  intro record
  cases record <;> exact keeps_change _ fun _ => rfl

theorem messagesAndTopics_unbind (client : ClientId) (broker : Broker) :
    messagesAndTopics { broker with store := broker.store.unbind client } =
      messagesAndTopics broker := by
  unfold Store.unbind
  split <;> rfl

theorem keeps_deregisterPublisher (publisher : ClientId) :
    Keeps messagesAndTopics (deregisterPublisher publisher) := by
  refine keeps_bind (keeps_look _ _) ?_
  intro record
  cases record.topicId?
  · exact keeps_throw _
  · exact keeps_change _ (messagesAndTopics_unbind publisher)

theorem keeps_registerSubscriber (subscriber : ClientId) (topicName : String) :
    Keeps messagesAndTopics (registerSubscriber subscriber topicName) := by
  refine keeps_bind (keeps_look _ _) ?_
  intro subscribed
  split
  · exact keeps_pure _
  · refine keeps_bind (keeps_resolve topicName) ?_
    intro topicId
    exact keeps_bind (keeps_change _ fun _ => rfl) fun _ => keeps_change _ fun _ => rfl

theorem keeps_deregisterSubscriber (subscriber : ClientId) (topicName : String) :
    Keeps messagesAndTopics (deregisterSubscriber subscriber topicName) :=
  keeps_bind (keeps_resolve topicName) fun _ => keeps_change _ fun _ => rfl

end TopicBroker.Registry
