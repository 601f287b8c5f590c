import TopicBroker.Proofs.Registry.Effects
import TopicBroker.Proofs.Registry.Waiting
import TopicBroker.Proofs.Router.Failures
import TopicBroker.Session

/-! # Roles are confined

What clients of one role can change, on however many sessions. A publisher's frame puts at most one
message in line and leaves everything that subscribers rely on as it was; a subscriber's frame takes
messages off the front of at most one topic and leaves everything that publishers rely on as it
was. -/

namespace TopicBroker.Router

open Record Registry Wire TopicBroker.Action

/-! ## Frames on sessions -/

/-- A frame that arrives on a session. -/
structure Arrival where
  session : Session
  frame : String

/-- Answers a frame in the role of its session. -/
def Arrival.answer (arrival : Arrival) : Action Response := fun conditions broker =>
  let (response, after) :=
    (route (Registry.service conditions) (some arrival.session.role) arrival.frame).run broker
  (.ok response, after)

/-- The response to a frame. -/
def told (step : Step Arrival) : Response :=
  ((route (Registry.service step.conditions) (some step.event.session.role)
    step.event.frame).run step.before).1

/-! ## What the roles may change -/

/-- A message that was put in line on a topic. -/
structure Placed where
  topicId : String
  message : Message

/-- What was taken off the front of a topic: messages that had expired, and the one behind them, if
there was one. -/
structure Taken where
  topicId : String
  expired : List Message
  handed : Option Message

def placedOn (topicId : String) (placed : List Placed) : List Message :=
  (placed.filter (·.topicId = topicId)).map (·.message)

def takenFrom (topicId : String) (taken : List Taken) : List Message :=
  (taken.filter (·.topicId = topicId)).flatMap fun t => t.expired ++ t.handed.toList

def expiredOn (topicId : String) (taken : List Taken) : List Message :=
  (taken.filter (·.topicId = topicId)).flatMap (·.expired)

/-- What publishers leave: messages at the ends of the live lists, and nothing else that subscribers
rely on. -/
structure PublisherFootprint (before after : Broker) (placed : List Placed) : Prop where
  topics : after.store.topics = before.store.topics ∧ after.store.names = before.store.names
  subscribers : after.store.subscribers = before.store.subscribers
  subscriptions : after.store.subscriptions = before.store.subscriptions
  live : ∀ topicId,
    (after.queue topicId).live = (before.queue topicId).live ++ placedOn topicId placed
  dead : ∀ topicId, (after.queue topicId).dead = (before.queue topicId).dead

/-- What subscribers leave: live lists without what was taken off their fronts, the expired ones of
it at the ends of the dead lists, and nothing else that publishers rely on. -/
structure SubscriberFootprint (before after : Broker) (taken : List Taken) : Prop where
  topics : after.store.topics = before.store.topics ∧ after.store.names = before.store.names
  publishers : after.store.publishers = before.store.publishers
  log : after.store.log = before.store.log
  live : ∀ topicId,
    (before.queue topicId).live = takenFrom topicId taken ++ (after.queue topicId).live
  dead : ∀ topicId,
    (after.queue topicId).dead = (before.queue topicId).dead ++ expiredOn topicId taken

theorem PublisherFootprint.refl (broker : Broker) : PublisherFootprint broker broker [] where
  topics := ⟨rfl, rfl⟩
  subscribers := rfl
  subscriptions := rfl
  live _ := (List.append_nil _).symm
  dead _ := rfl

theorem PublisherFootprint.trans {first second third : Broker} {placed more : List Placed}
    (h : PublisherFootprint first second placed) (h' : PublisherFootprint second third more) :
    PublisherFootprint first third (placed ++ more) where
  topics := ⟨h'.topics.1.trans h.topics.1, h'.topics.2.trans h.topics.2⟩
  subscribers := h'.subscribers.trans h.subscribers
  subscriptions := h'.subscriptions.trans h.subscriptions
  live topicId := by
    rw [h'.live, h.live, placedOn, placedOn, placedOn, List.filter_append, List.map_append,
      List.append_assoc]
  dead topicId := (h'.dead topicId).trans (h.dead topicId)

theorem SubscriberFootprint.refl (broker : Broker) : SubscriberFootprint broker broker [] where
  topics := ⟨rfl, rfl⟩
  publishers := rfl
  log := rfl
  live _ := rfl
  dead _ := (List.append_nil _).symm

theorem SubscriberFootprint.trans {first second third : Broker} {taken more : List Taken}
    (h : SubscriberFootprint first second taken) (h' : SubscriberFootprint second third more) :
    SubscriberFootprint first third (taken ++ more) where
  topics := ⟨h'.topics.1.trans h.topics.1, h'.topics.2.trans h.topics.2⟩
  publishers := h'.publishers.trans h.publishers
  log := h'.log.trans h.log
  live topicId := by
    rw [h.live, h'.live, takenFrom, takenFrom, takenFrom, List.filter_append, List.flatMap_append,
      List.append_assoc]
  dead topicId := by
    rw [h'.dead, h.dead, expiredOn, expiredOn, expiredOn, List.filter_append, List.flatMap_append,
      List.append_assoc]

/-! ## Calls of a role -/

/-- The calls that a role may make. -/
def Suits : Role → ServiceCall → Prop
  | _, .listTopics => True
  | role, .registerPublisher .. | role, .deregisterPublisher _ | role, .publish .. =>
    role = .publisher
  | role, .registerSubscriber .. | role, .deregisterSubscriber .. | role, .listSubscriptions _
  | role, .readMessage .. => role = .subscriber

theorem suits_of_admitted {role : Role} {frame : String} {format : ContentType} {call : ServiceCall}
    (h : Admitted (some role) frame format call) : Suits role call := by
  obtain ⟨request, method, record, hclears, -, hcall⟩ := h
  have hallows : method.allows role = true := hclears.allowed role rfl
  cases method with
  | checkMessageStatus => cases hcall
  | showTopic =>
      obtain rfl := Option.some.inj hcall
      trivial
  | connectToTopic | disconnectFromTopic | publishMessage =>
      have hrole : role = .publisher := of_decide_eq_true hallows
      obtain rfl := Option.some.inj hcall
      exact hrole
  | subscribeToTopic | unsubscribeFromTopic | getSubscribedTopics | getMessageFromTopic =>
      have hrole : role = .subscriber := of_decide_eq_true hallows
      obtain rfl := Option.some.inj hcall
      exact hrole

variable {conditions : Conditions} {before start after : Broker}

theorem publisherFootprint_publishers (broker : Broker) (publishers : Table String) :
    PublisherFootprint broker { broker with store := { broker.store with publishers } } [] :=
  ⟨⟨rfl, rfl⟩, rfl, rfl, (PublisherFootprint.refl broker).live, fun _ => rfl⟩

theorem publisherFootprint_enqueued (publication : Publication) (broker : Broker)
    (log : Table String) :
    PublisherFootprint broker
      { enqueued publication broker with store := { broker.store with log } }
      [⟨publication.topicId, publication.message⟩] := by
  refine ⟨⟨rfl, rfl⟩, rfl, rfl, ?_, ?_⟩
  · intro topicId
    have hlive := congrArg TopicQueue.live (queue_enqueued publication broker topicId)
    refine Eq.trans hlive ?_
    by_cases htopic : topicId = publication.topicId
    · simp [placedOn, htopic]
    · simp [placedOn, htopic, Ne.symm htopic]
  · intro topicId
    have hdead := congrArg TopicQueue.dead (queue_enqueued publication broker topicId)
    refine Eq.trans hdead ?_
    split <;> rfl

/-- A call of a publisher puts at most one message in line. -/
theorem publisherFootprint_of_effect {call : ServiceCall}
    {answer : Except BrokerError call.Answer} (hsuits : Suits .publisher call)
    (h : Effect conditions start call answer after) :
    ∃ placed : Option Placed, PublisherFootprint start after placed.toList := by
  cases h with
  | nothing | listTopics => exact ⟨none, .refl _⟩
  | registerPublisher => exact ⟨none, publisherFootprint_publishers _ _⟩
  | deregisterPublisher =>
      obtain ⟨publishers, hunbind⟩ := exists_unbind_eq _ start.store
      rw [hunbind]
      exact ⟨none, publisherFootprint_publishers _ _⟩
  | publish => exact ⟨some _, publisherFootprint_enqueued _ _ _⟩
  | unlogged => exact ⟨some _, publisherFootprint_enqueued _ _ start.store.log⟩
  | subscribed | registerSubscriber | halfSubscribed | deregisterSubscriber | listSubscriptions
  | readMessage => cases hsuits

theorem subscriberFootprint_subscriptions (broker : Broker)
    (subscribers subscriptions : Table Unit) :
    SubscriberFootprint broker
      { broker with store := { broker.store with subscribers, subscriptions } } [] :=
  ⟨⟨rfl, rfl⟩, rfl, rfl, fun _ => rfl, (SubscriberFootprint.refl broker).dead⟩

/-- What a reader takes from a topic. -/
def takenBy (conditions : Conditions) (topicId : String) (broker : Broker) : Taken where
  topicId := topicId
  expired := (broker.queue topicId).expiredFront conditions.now
  handed := (broker.engine.queues.retrieve topicId conditions.now).1

theorem subscriberFootprint_retrieve (conditions : Conditions) (topicId : String)
    (broker : Broker) :
    SubscriberFootprint broker
      (Engine.mapQueues (fun queues => (queues.retrieve topicId conditions.now).2) broker)
      [takenBy conditions topicId broker] := by
  have hqueue (other : String) :=
    Queues.topic_retrieve topicId other conditions.now broker.engine.queues
  have hhanded := Queues.retrieve_fst topicId conditions.now broker.engine.queues
  refine ⟨⟨rfl, rfl⟩, rfl, rfl, ?_, ?_⟩
  · intro other
    rw [Broker.queue, Broker.queue, Engine.mapQueues, hqueue]
    by_cases hother : other = topicId
    · subst hother
      simpa [takenFrom, takenBy, hhanded, Broker.queue] using
        (broker.queue other).live_eq_take conditions.now
    · simp [takenFrom, takenBy, hother, Ne.symm hother]
  · intro other
    rw [Broker.queue, Broker.queue, Engine.mapQueues, hqueue]
    by_cases hother : other = topicId
    · subst hother
      simp [expiredOn, takenBy, Broker.queue]
    · simp [expiredOn, takenBy, hother, Ne.symm hother]

/-- A response brings what a reader was handed. -/
def Brings (response : Response) (format : ContentType) (handed : Option Message) : Prop :=
  response = .ok (format.encode (GetMessageFromTopicResponse.mk (handed.map MessageBody.of)))

/-- A call of a subscriber takes messages off the front of at most one topic, and is answered with
the one that it is handed. -/
theorem subscriberFootprint_of_effect {call : ServiceCall}
    {answer : Except BrokerError call.Answer} (hsuits : Suits .subscriber call)
    (h : Effect conditions start call answer after) :
    ∃ taken : Option Taken, SubscriberFootprint start after taken.toList ∧
      ∀ t ∈ taken, (∀ message ∈ t.expired, message.isExpiredAt conditions.now = true) ∧
        ∃ subscriber topicName, call = .readMessage subscriber topicName ∧
          ∀ format, Brings (respond format call answer) format t.handed := by
  cases h with
  | nothing | listTopics | subscribed | listSubscriptions => exact ⟨none, .refl _, nofun⟩
  | registerPublisher | deregisterPublisher | publish | unlogged => cases hsuits
  | registerSubscriber => exact ⟨none, subscriberFootprint_subscriptions _ _ _, nofun⟩
  | halfSubscribed =>
      exact ⟨none, subscriberFootprint_subscriptions _ _ start.store.subscriptions, nofun⟩
  | deregisterSubscriber =>
      exact ⟨none, subscriberFootprint_subscriptions _ start.store.subscribers _, nofun⟩
  | @readMessage subscriber topicName topicId =>
      refine ⟨some _, subscriberFootprint_retrieve conditions topicId start, ?_⟩
      rintro t ⟨⟩
      refine ⟨?_, subscriber, topicName, rfl, fun _ => rfl⟩
      intro message hmessage
      exact TopicQueue.isExpiredAt_of_mem_expiredFront hmessage

/-! ## Frames -/

theorem reachable_act {broker : Broker} (h : Reachable broker) (move : Move)
    (conditions : Conditions) : Reachable (move.act.perform conditions broker).2 := by
  obtain ⟨store, defaultTtl, schedule, rfl⟩ := h
  refine ⟨store, defaultTtl, schedule ++ [(conditions, move)], ?_⟩
  rw [Schedule.final_append]
  rfl

/-- A frame is refused and does nothing, or a call that suits its role is carried out. -/
theorem answer_cases (step : Step Arrival) :
    step.after Arrival.answer = step.before ∨
      ∃ format call answer, Admitted (some step.event.session.role) step.event.frame format call ∧
        (carryOut call).perform step.conditions step.before =
          (answer, step.after Arrival.answer) ∧
        told step = respond format call answer := by
  have hafter : step.after Arrival.answer =
      ((route (Registry.service step.conditions) (some step.event.session.role)
        step.event.frame).run step.before).2 := rfl
  rw [hafter, told]
  rcases admitted_or_refused (some step.event.session.role) step.event.frame with
    ⟨format, call, hadmitted⟩ | ⟨error, hrefused⟩
  · rcases hperform : (carryOut call).perform step.conditions step.before with ⟨answer, next⟩
    refine .inr ⟨format, call, answer, hadmitted, ?_⟩
    rw [route_of_plan_eq_ok _ (plan_of_admitted hadmitted), run_respond hperform]
    exact ⟨hperform, rfl⟩
  · rw [route_of_plan_eq_error _ (plan_of_refused hrefused)]
    exact .inl rfl

theorem reachable_answer (step : Step Arrival) (h : Reachable step.before) :
    Reachable (step.after Arrival.answer) := by
  rcases answer_cases step with hsame | ⟨format, call, answer, -, hperform, -⟩
  · rw [hsame]
    exact h
  · have hnext := reachable_act h (.call call) step.conditions
    rw [Move.act, hperform] at hnext
    exact hnext

/-- The checkpoint as it is stored. -/
def stored (broker : Broker) : Table String × Table String :=
  (broker.store.live, broker.store.dead)

/-- The checkpoint is as it was, unless flushes wait for the engine that others had sent before; it
may be as they leave it then. -/
def KeepsCheckpoint (step : Step Arrival) : Prop :=
  stored (step.after Arrival.answer) = stored step.before ∨
    step.before.engine.mailbox ≠ [] ∧ Engine.OnlyFlushesWait step.before ∧
      stored (step.after Arrival.answer) = stored (Engine.settled step.conditions step.before)

/-- What the frame of a publisher does. -/
structure PublisherStep (step : Step Arrival) (placed : Option Placed) : Prop where
  footprint : PublisherFootprint step.before (step.after Arrival.answer) placed.toList
  checkpoint : KeepsCheckpoint step

/-- What the frame of a subscriber does. The response brings the message that was taken and had not
expired. -/
structure SubscriberStep (step : Step Arrival) (taken : Option Taken) : Prop where
  footprint : SubscriberFootprint step.before (step.after Arrival.answer) taken.toList
  expired : ∀ t ∈ taken, ∀ message ∈ t.expired, message.isExpiredAt step.conditions.now = true
  handed : ∀ t ∈ taken, ∃ format subscriber topicName,
    Admitted (some .subscriber) step.event.frame format (.readMessage subscriber topicName) ∧
      Brings (told step) format t.handed
  checkpoint : KeepsCheckpoint step

theorem keepsCheckpoint {step : Step Arrival} (hreachable : Reachable step.before) :
    KeepsCheckpoint step := by
  rcases answer_cases step with hsame | ⟨format, call, answer, -, hperform, -⟩
  · exact .inl (congrArg stored hsame)
  · obtain ⟨start, hstarts, heffect⟩ := carries_carryOut step.conditions step.before call
    rw [hperform] at heffect
    have hstored : stored (step.after Arrival.answer) = stored start :=
      congrArg (fun parts => (parts.2.2.1, parts.2.2.2.1)) (fixed_of_effect heffect)
    cases hstarts with
    | found => exact .inl hstored
    | settled hmailbox =>
        exact .inr ⟨hmailbox, onlyFlushesWait_of_reachable hreachable, hstored⟩

theorem mailbox_answer {step : Step Arrival} (h : step.before.engine.mailbox = []) :
    (step.after Arrival.answer).engine.mailbox = [] := by
  rcases answer_cases step with hsame | ⟨format, call, answer, -, hperform, -⟩
  · rw [hsame]
    exact h
  · obtain ⟨start, hstarts, heffect⟩ := carries_carryOut step.conditions step.before call
    rw [hperform] at heffect
    obtain rfl := hstarts.eq_of_mailbox h
    exact (congrArg (·.2.2.2.2) (fixed_of_effect heffect)).trans h

/-- Flushes that were under way are no trace of a frame. -/
theorem publisherFootprint_of_starts (hreachable : Reachable before)
    (h : Engine.Starts conditions before start) : PublisherFootprint before start [] := by
  obtain ⟨live, dead, mailbox, rfl⟩ := exists_of_starts hreachable h
  exact ⟨⟨rfl, rfl⟩, rfl, rfl, (PublisherFootprint.refl before).live, fun _ => rfl⟩

theorem subscriberFootprint_of_starts (hreachable : Reachable before)
    (h : Engine.Starts conditions before start) : SubscriberFootprint before start [] := by
  obtain ⟨live, dead, mailbox, rfl⟩ := exists_of_starts hreachable h
  exact ⟨⟨rfl, rfl⟩, rfl, rfl, fun _ => rfl, (SubscriberFootprint.refl before).dead⟩

theorem exists_publisherStep (step : Step Arrival) (hreachable : Reachable step.before)
    (hrole : step.event.session.role = .publisher) : ∃ placed, PublisherStep step placed := by
  rcases answer_cases step with hsame | ⟨format, call, answer, hadmitted, hperform, -⟩
  · refine ⟨none, ?_, keepsCheckpoint hreachable⟩
    rw [hsame]
    exact .refl _
  · obtain ⟨start, hstarts, heffect⟩ := carries_carryOut step.conditions step.before call
    rw [hperform] at heffect
    rw [hrole] at hadmitted
    obtain ⟨placed, hplaced⟩ := publisherFootprint_of_effect (suits_of_admitted hadmitted) heffect
    have hstart := publisherFootprint_of_starts hreachable hstarts
    exact ⟨placed, hstart.trans hplaced, keepsCheckpoint hreachable⟩

theorem exists_subscriberStep (step : Step Arrival) (hreachable : Reachable step.before)
    (hrole : step.event.session.role = .subscriber) : ∃ taken, SubscriberStep step taken := by
  rcases answer_cases step with hsame | ⟨format, call, answer, hadmitted, hperform, htold⟩
  · refine ⟨none, ?_, nofun, nofun, keepsCheckpoint hreachable⟩
    rw [hsame]
    exact .refl _
  · obtain ⟨start, hstarts, heffect⟩ := carries_carryOut step.conditions step.before call
    rw [hperform] at heffect
    rw [hrole] at hadmitted
    obtain ⟨taken, htaken, hanswer⟩ :=
      subscriberFootprint_of_effect (suits_of_admitted hadmitted) heffect
    have hstart := subscriberFootprint_of_starts hreachable hstarts
    have hkept := keepsCheckpoint hreachable
    refine ⟨taken, hstart.trans htaken, fun t ht => (hanswer t ht).1, ?_, hkept⟩
    intro t ht
    obtain ⟨-, subscriber, topicName, rfl, hbrings⟩ := hanswer t ht
    exact ⟨format, subscriber, topicName, hadmitted, htold ▸ hbrings format⟩

/-! ## Runs -/

/-- What the frames of publishers do, one after the other. -/
structure PublishersConfined (schedule : Schedule Arrival) (start : Broker) : Prop where
  frames : ∃ placed : List (Option Placed),
    List.Forall₂ PublisherStep (schedule.steps Arrival.answer start) placed ∧
      PublisherFootprint start (schedule.final Arrival.answer start) (placed.flatMap Option.toList)
  checkpoint : start.engine.mailbox = [] →
    stored (schedule.final Arrival.answer start) = stored start

/-- What the frames of subscribers do, one after the other. -/
structure SubscribersConfined (schedule : Schedule Arrival) (start : Broker) : Prop where
  frames : ∃ taken : List (Option Taken),
    List.Forall₂ SubscriberStep (schedule.steps Arrival.answer start) taken ∧
      SubscriberFootprint start (schedule.final Arrival.answer start) (taken.flatMap Option.toList)
  checkpoint : start.engine.mailbox = [] →
    stored (schedule.final Arrival.answer start) = stored start

/-- If nothing waits for the engine the checkpoint stays as it is. -/
theorem stored_final (schedule : Schedule Arrival) {start : Broker} (hreachable : Reachable start)
    (h : start.engine.mailbox = []) :
    stored (schedule.final Arrival.answer start) = stored start := by
  have hrun : Reachable (schedule.final Arrival.answer start) ∧
      stored (schedule.final Arrival.answer start) = stored start ∧
        (schedule.final Arrival.answer start).engine.mailbox = [] := by
    refine Schedule.final_of_steps Arrival.answer (P := fun broker => Reachable broker ∧
      stored broker = stored start ∧ broker.engine.mailbox = []) ?_ ⟨hreachable, rfl, h⟩
    rintro step - ⟨hbefore, hstored, hmailbox⟩
    refine ⟨reachable_answer step hbefore, ?_, mailbox_answer hmailbox⟩
    rcases keepsCheckpoint hbefore with hkept | ⟨hwaits, -⟩
    · exact hkept.trans hstored
    · exact absurd hmailbox hwaits
  exact hrun.2.1

/-- If every frame of a role leaves a trace, and what lies between two brokers is told by the traces
of the frames between them, then so it is for a whole run. -/
theorem exists_traces {Trace : Type} {Between : Broker → Broker → List Trace → Prop}
    {Leaves : Step Arrival → Option Trace → Prop} {role : Role}
    (hrefl : ∀ broker, Between broker broker [])
    (htrans : ∀ {first second third traces more}, Between first second traces →
      Between second third more → Between first third (traces ++ more))
    (hbetween : ∀ {step trace}, Leaves step trace →
      Between step.before (step.after Arrival.answer) trace.toList)
    (hleaves : ∀ step : Step Arrival, Reachable step.before → step.event.session.role = role →
      ∃ trace, Leaves step trace)
    (schedule : Schedule Arrival) {start : Broker} (hreachable : Reachable start)
    (hroles : ∀ entry ∈ schedule, entry.2.session.role = role) :
    ∃ traces : List (Option Trace),
      List.Forall₂ Leaves (schedule.steps Arrival.answer start) traces ∧
        Between start (schedule.final Arrival.answer start) (traces.flatMap Option.toList) := by
  induction schedule generalizing start with
  | nil => exact ⟨[], .nil, hrefl start⟩
  | cons entry schedule ih =>
      obtain ⟨hrole, hrest⟩ := List.forall_mem_cons.mp hroles
      let step : Step Arrival := ⟨start, entry.1, entry.2⟩
      obtain ⟨trace, htrace⟩ := hleaves step hreachable hrole
      obtain ⟨more, hsteps, hfinal⟩ := ih (reachable_answer step hreachable) hrest
      refine ⟨trace :: more, .cons htrace hsteps, ?_⟩
      rw [List.flatMap_cons]
      exact htrans (hbetween htrace) hfinal

theorem publishersConfined (schedule : Schedule Arrival) {start : Broker}
    (hreachable : Reachable start)
    (hroles : ∀ entry ∈ schedule, entry.2.session.role = .publisher) :
    PublishersConfined schedule start where
  frames := exists_traces .refl .trans PublisherStep.footprint exists_publisherStep schedule
    hreachable hroles
  checkpoint := stored_final schedule hreachable

theorem subscribersConfined (schedule : Schedule Arrival) {start : Broker}
    (hreachable : Reachable start)
    (hroles : ∀ entry ∈ schedule, entry.2.session.role = .subscriber) :
    SubscribersConfined schedule start where
  frames := exists_traces .refl .trans SubscriberStep.footprint exists_subscriberStep schedule
    hreachable hroles
  checkpoint := stored_final schedule hreachable

/-- What the frames of clients in a role do, one after the other. -/
def Confined (role : Role) (schedule : Schedule Arrival) (start : Broker) : Prop :=
  match role with
  | .publisher => PublishersConfined schedule start
  | .subscriber => SubscribersConfined schedule start

/-- Frames on the sessions of one role, in whatever order they arrive, do no more than their role
may do: each of them, and all of them together. -/
theorem confined_of_role (role : Role) (schedule : Schedule Arrival) {start : Broker}
    (hreachable : Reachable start) (hroles : ∀ entry ∈ schedule, entry.2.session.role = role) :
    Confined role schedule start := by
  cases role with
  | publisher => exact publishersConfined schedule hreachable hroles
  | subscriber => exact subscribersConfined schedule hreachable hroles

/-- A broker with a topic and a message in line. -/
def oneMessage : Broker :=
  Schedule.final Move.act
    [(.calm "a", .createTopic "news"),
      (.calm "b", .command (.enqueue "a0" ⟨"m", "first", "", "2999-01-01 00:00:00"⟩))]
    (.started .empty 60)

/-- Two sessions ask for the next message. -/
def twoReaders : Schedule Arrival :=
  let frame := toLine (Request.mk (Header.of .json "getMessageFromTopic")
    (ContentType.json.encode (GetMessageFromTopicRequest.mk ⟨5, by decide⟩ "news")))
  [(.calm "c", ⟨⟨.subscriber, ⟨40000, by decide⟩⟩, frame⟩),
    (.calm "d", ⟨⟨.subscriber, ⟨40001, by decide⟩⟩, frame⟩)]

theorem confined_of_role_twoReaders :
    Reachable oneMessage ∧ (∀ entry ∈ twoReaders, entry.2.session.role = .subscriber) ∧
      Confined .subscriber twoReaders oneMessage := by
  have hreachable : Reachable oneMessage := ⟨.empty, 60, _, rfl⟩
  have hroles : ∀ entry ∈ twoReaders, entry.2.session.role = .subscriber := by
    simp [twoReaders]
  exact ⟨hreachable, hroles, confined_of_role .subscriber twoReaders hreachable hroles⟩

end TopicBroker.Router
