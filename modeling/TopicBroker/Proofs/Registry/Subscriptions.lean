import TopicBroker.Proofs.Registry.Topics
import TopicBroker.Proofs.Store.Subscriptions

/-! # Subscriptions follow the last call that succeeded

The topics that a subscriber is listed with are those that it subscribed to and did not leave since.
Nobody else adds to them or takes from them. -/

namespace TopicBroker

namespace Registry

open TopicBroker.Action

/-! ## Steps that succeed -/

/-- The step subscribes a subscriber to a topic, or finds it subscribed already. -/
def Subscribes (subscriber : ClientId) (topicName : String) (step : Step Move) : Prop :=
  step.reply Move.act = ⟨.call (.registerSubscriber subscriber topicName), .ok ()⟩

/-- The step ends the subscription of a subscriber to a topic, if there is one. -/
def Unsubscribes (subscriber : ClientId) (topicName : String) (step : Step Move) : Prop :=
  step.reply Move.act = ⟨.call (.deregisterSubscriber subscriber topicName), .ok ()⟩

theorem Subscribes.event {subscriber : ClientId} {topicName : String} {step : Step Move}
    (h : Subscribes subscriber topicName step) :
    step.event = .call (.registerSubscriber subscriber topicName) :=
  congrArg Sigma.fst h

theorem Unsubscribes.event {subscriber : ClientId} {topicName : String} {step : Step Move}
    (h : Unsubscribes subscriber topicName step) :
    step.event = .call (.deregisterSubscriber subscriber topicName) :=
  congrArg Sigma.fst h

/-! ## Calls -/

section

variable {conditions : Conditions} {start after : Broker} {call : ServiceCall}
  {answer : Except BrokerError call.Answer}

/-- Only a subscriber's own calls change what it is listed with. -/
theorem subscribedTopics_of_effect (h : Effect conditions start call answer after)
    (subscriber : ClientId)
    (hregister : ∀ topicName, call ≠ .registerSubscriber subscriber topicName)
    (hderegister : ∀ topicName, call ≠ .deregisterSubscriber subscriber topicName) :
    after.store.subscribedTopics subscriber = start.store.subscribedTopics subscriber := by
  cases h with
  | deregisterPublisher =>
      obtain ⟨publishers, hunbind⟩ := exists_unbind_eq _ start.store
      rw [hunbind]
      rfl
  | @registerSubscriber client topicName topicId unlisted known =>
      have hne : subscriber ≠ client := by
        rintro rfl
        exact hregister topicName rfl
      exact Store.subscribedTopics_subscribe_of_ne hne topicId
  | @deregisterSubscriber client topicName topicId known =>
      have hne : subscriber ≠ client := by
        rintro rfl
        exact hderegister topicName rfl
      exact Store.subscribedTopics_unsubscribe_of_ne hne topicId
  | _ => rfl

theorem agrees_of_effect (h : Effect conditions start call answer after)
    (hagrees : start.store.Agrees) : after.store.Agrees := by
  cases h with
  | deregisterPublisher =>
      obtain ⟨publishers, hunbind⟩ := exists_unbind_eq _ start.store
      rw [hunbind]
      exact hagrees.congr rfl
  | @registerSubscriber client topicName topicId unlisted known =>
      have hadded : (start.store.addSubscriber client).Agrees := hagrees.congr rfl
      exact hadded.subscribe client known
  | deregisterSubscriber => exact hagrees.unsubscribe _ _
  | _ => exact hagrees.congr rfl

/-- What a subscriber subscribed to is listed. -/
theorem mem_of_registered (hagrees : start.store.Agrees) {subscriber : ClientId}
    {topicName : String}
    (h : Effect conditions start (.registerSubscriber subscriber topicName) (.ok ()) after) :
    topicName ∈ after.store.subscribedTopics subscriber := by
  cases h with
  | subscribed listed => exact listed
  | registerSubscriber unlisted known =>
      have hadded : (start.store.addSubscriber subscriber).Agrees := hagrees.congr rfl
      exact (Store.mem_subscribe_iff hadded _ _ _ known).mpr (.inl ⟨rfl, rfl⟩)

/-- What a subscriber left is not listed. -/
theorem not_mem_of_deregistered (hagrees : start.store.Agrees) {subscriber : ClientId}
    {topicName : String}
    (h : Effect conditions start (.deregisterSubscriber subscriber topicName) (.ok ()) after) :
    topicName ∉ after.store.subscribedTopics subscriber := by
  cases h with
  | deregisterSubscriber known =>
      intro hlisted
      exact ((Store.mem_unsubscribe_iff hagrees _ _ _ known).mp hlisted).1 ⟨rfl, rfl⟩

/-- A call keeps a topic listed or unlisted unless it succeeds for this subscriber and this
topic. -/
theorem mem_iff_of_effect (hagrees : start.store.Agrees)
    (h : Effect conditions start call answer after) {subscriber : ClientId} {topicName : String}
    (hregister : (⟨call, answer⟩ : Σ call : ServiceCall, Except BrokerError call.Answer) ≠
      ⟨.registerSubscriber subscriber topicName, .ok ()⟩)
    (hderegister : (⟨call, answer⟩ : Σ call : ServiceCall, Except BrokerError call.Answer) ≠
      ⟨.deregisterSubscriber subscriber topicName, .ok ()⟩) :
    topicName ∈ after.store.subscribedTopics subscriber ↔
      topicName ∈ start.store.subscribedTopics subscriber := by
  have hsame := subscribedTopics_of_effect h subscriber
  cases h with
  | nothing | subscribed | halfSubscribed => exact Iff.rfl
  | @registerSubscriber client other topicId unlisted known =>
      have hadded : (start.store.addSubscriber client).Agrees := hagrees.congr rfl
      refine (Store.mem_subscribe_iff hadded _ _ _ known).trans (or_iff_right ?_)
      rintro ⟨rfl, rfl⟩
      exact hregister rfl
  | @deregisterSubscriber client other topicId known =>
      refine (Store.mem_unsubscribe_iff hagrees _ _ _ known).trans (and_iff_right ?_)
      rintro ⟨rfl, rfl⟩
      exact hderegister rfl
  | _ => rw [hsame (by simp) (by simp)]

end

/-! ## Steps -/

/-- Nothing that is created has the id of a topic that is there. -/
def CreatesFresh (step : Step Move) : Prop :=
  ∀ name, step.event = .createTopic name →
    step.before.store.names.find? (step.conditions.fresh 0) = none

theorem agrees_after {step : Step Move} (hfresh : CreatesFresh step)
    (h : step.before.store.Agrees) : (step.after Move.act).store.Agrees := by
  cases happens step with
  | call reply records effect =>
      refine agrees_of_effect effect (h.congr ?_)
      exact congrArg (fun r => (r.1.topics, r.1.names, r.1.subscriptions)) records
  | topic event created =>
      rw [created]
      exact Store.agrees_insertTopic h (hfresh _ event)
  | kept quiet records =>
      refine h.congr ?_
      exact congrArg (fun r => (r.1.topics, r.1.names, r.1.subscriptions)) records

/-- What is no call of a subscriber's own to subscribe or to leave changes nothing that it is listed
with. -/
theorem subscribedTopics_after {step : Step Move} (hfresh : CreatesFresh step)
    (h : step.before.store.Agrees) {subscriber : ClientId}
    (hregister : ∀ topicName, step.event ≠ .call (.registerSubscriber subscriber topicName))
    (hderegister : ∀ topicName, step.event ≠ .call (.deregisterSubscriber subscriber topicName)) :
    (step.after Move.act).store.subscribedTopics subscriber =
      step.before.store.subscribedTopics subscriber := by
  cases happens step with
  | @call call answer start reply records effect =>
      have hevent : step.event = .call call := congrArg Sigma.fst reply
      rw [hevent] at hregister hderegister
      have hsame := subscribedTopics_of_effect effect subscriber
        (fun topicName heq => hregister topicName (congrArg Move.call heq))
        (fun topicName heq => hderegister topicName (congrArg Move.call heq))
      exact hsame.trans (congrArg (·.1.subscribedTopics subscriber) records)
  | topic event created =>
      rw [created]
      exact Store.subscribedTopics_insertTopic h (hfresh _ event) subscriber
  | kept quiet records => exact congrArg (·.1.subscribedTopics subscriber) records

/-- What a step does to a subscription. -/
inductive Resubscribes (subscriber : ClientId) (topicName : String) (step : Step Move) : Prop where
  | subscribes (subscribes : Subscribes subscriber topicName step)
      (after : topicName ∈ (step.after Move.act).store.subscribedTopics subscriber)
  | unsubscribes (unsubscribes : Unsubscribes subscriber topicName step)
      (after : topicName ∉ (step.after Move.act).store.subscribedTopics subscriber)
  | keeps (other : ¬ Subscribes subscriber topicName step)
      (another : ¬ Unsubscribes subscriber topicName step)
      (after : topicName ∈ (step.after Move.act).store.subscribedTopics subscriber ↔
        topicName ∈ step.before.store.subscribedTopics subscriber)

theorem resubscribes_of_call {step : Step Move} (h : step.before.store.Agrees)
    (subscriber : ClientId) (topicName : String) {call : ServiceCall}
    {answer : Except BrokerError call.Answer} {start : Broker}
    (reply : step.reply Move.act = ⟨.call call, answer⟩)
    (records : Engine.records start = Engine.records step.before)
    (effect : Effect step.conditions start call answer (step.after Move.act)) :
    Resubscribes subscriber topicName step := by
  have hagrees : start.store.Agrees :=
    h.congr (congrArg (fun r => (r.1.topics, r.1.names, r.1.subscriptions)) records)
  have hlist : start.store.subscribedTopics subscriber =
      step.before.store.subscribedTopics subscriber :=
    congrArg (·.1.subscribedTopics subscriber) records
  by_cases hsubscribes : Subscribes subscriber topicName step
  · cases reply.symm.trans hsubscribes
    exact .subscribes hsubscribes (mem_of_registered hagrees effect)
  by_cases hunsubscribes : Unsubscribes subscriber topicName step
  · cases reply.symm.trans hunsubscribes
    exact .unsubscribes hunsubscribes (not_mem_of_deregistered hagrees effect)
  · refine .keeps hsubscribes hunsubscribes (hlist ▸ mem_iff_of_effect hagrees effect ?_ ?_)
    · rintro ⟨⟩
      exact hsubscribes reply
    · rintro ⟨⟩
      exact hunsubscribes reply

theorem resubscribes {step : Step Move} (hfresh : CreatesFresh step)
    (h : step.before.store.Agrees) (subscriber : ClientId) (topicName : String) :
    Resubscribes subscriber topicName step := by
  have quiet (hquiet : ∀ call, step.event ≠ .call call) :
      Resubscribes subscriber topicName step := by
    refine .keeps (fun h => hquiet _ h.event) (fun h => hquiet _ h.event) ?_
    rw [subscribedTopics_after hfresh h (fun _ => hquiet _) (fun _ => hquiet _)]
  cases happens step with
  | call reply records effect =>
      exact resubscribes_of_call h subscriber topicName reply records effect
  | topic event created => exact quiet fun call hcall => by cases event.symm.trans hcall
  | kept hquiet records => exact quiet hquiet

/-! ## Runs -/

/-- No two topics are created under the same id. -/
def FreshTopics (schedule : Schedule Move) : Prop :=
  schedule.Pairwise fun entry later => ∀ name other, entry.2 = .createTopic name →
    later.2 = .createTopic other → entry.1.fresh 0 ≠ later.1.fresh 0

/-- What a run leaves of topics and subscriptions. -/
structure Enrolled (steps : List (Step Move)) (broker : Broker) : Prop where
  agrees : broker.store.Agrees
  /-- Every topic was created in the run. -/
  created : ∀ topicId name, broker.store.names.find? topicId = some name →
    ∃ step ∈ steps, (∃ other, step.event = .createTopic other) ∧ step.conditions.fresh 0 = topicId
  /-- A subscriber is listed with a topic if it subscribed to it and did not leave it since. -/
  listed : ∀ subscriber topicName, topicName ∈ broker.store.subscribedTopics subscriber ↔
    Since (Subscribes subscriber topicName) (Unsubscribes subscriber topicName) steps

theorem enrolled_nil (defaultTtl : Nat) : Enrolled [] (.started .empty defaultTtl) := by
  refine ⟨Store.agrees_empty, fun _ _ h => (by cases h), ?_⟩
  intro subscriber topicName
  exact iff_of_false (fun h => by cases h) not_since_nil

theorem Enrolled.snoc {steps : List (Step Move)} {step : Step Move}
    (h : Enrolled steps step.before) (hfresh : CreatesFresh step) :
    Enrolled (steps ++ [step]) (step.after Move.act) := by
  refine ⟨agrees_after hfresh h.agrees, ?_, ?_⟩
  · intro topicId name hname
    rcases topics_after step with ⟨-, hnames⟩ | ⟨other, hevent, -, -, hnames⟩
    · rw [hnames] at hname
      obtain ⟨first, hfirst, hcreates⟩ := h.created topicId name hname
      exact ⟨first, List.mem_append_left _ hfirst, hcreates⟩
    · rw [hnames, Table.find?_insert] at hname
      split at hname
      · next hid => exact ⟨step, by simp, ⟨other, hevent⟩, hid.symm⟩
      · obtain ⟨first, hfirst, hcreates⟩ := h.created topicId name hname
        exact ⟨first, List.mem_append_left _ hfirst, hcreates⟩
  · intro subscriber topicName
    rw [since_append_singleton, ← h.listed subscriber topicName]
    cases resubscribes hfresh h.agrees subscriber topicName with
    | subscribes hsubscribes hafter => exact iff_of_true hafter (.inl hsubscribes)
    | unsubscribes hunsubscribes hafter =>
        refine iff_of_false hafter ?_
        rintro (hsubscribes | ⟨-, hnot⟩)
        · cases hsubscribes.event.symm.trans hunsubscribes.event
        · exact hnot hunsubscribes
    | keeps hother hanother hafter => simp [hafter, hother, hanother]

/-- No two steps of a run create topics under the same id. -/
def FreshTopicSteps (steps : List (Step Move)) : Prop :=
  steps.Pairwise fun step later => ∀ name other, step.event = .createTopic name →
    later.event = .createTopic other → step.conditions.fresh 0 ≠ later.conditions.fresh 0

theorem FreshTopics.steps {schedule : Schedule Move} (h : FreshTopics schedule) (broker : Broker) :
    FreshTopicSteps (schedule.steps Move.act broker) := by
  unfold FreshTopics at h
  rw [← Schedule.map_entry_steps Move.act schedule broker] at h
  exact List.pairwise_map.mp h

theorem Enrolled.createsFresh {steps : List (Step Move)} {step : Step Move}
    (h : Enrolled steps step.before) (hfresh : FreshTopicSteps (steps ++ [step])) :
    CreatesFresh step := by
  intro name hevent
  by_contra hknown
  obtain ⟨other, hother⟩ := Option.ne_none_iff_exists'.mp hknown
  obtain ⟨first, hfirst, ⟨created, hcreated⟩, hid⟩ := h.created _ other hother
  have hlast := (List.pairwise_append.mp hfresh).2.2 first hfirst step (by simp)
  exact hlast created name hcreated hevent hid

theorem enrolled_final {schedule : Schedule Move} (hfresh : FreshTopics schedule)
    (defaultTtl : Nat) :
    Enrolled (schedule.steps Move.act (.started .empty defaultTtl))
      (schedule.final Move.act (.started .empty defaultTtl)) := by
  refine Schedule.run_induction Move.act
    (motive := fun steps broker => FreshTopicSteps steps → Enrolled steps broker)
    (fun _ => enrolled_nil defaultTtl) ?_ schedule (hfresh.steps _)
  intro steps step ih hsteps
  have hbefore := ih (List.pairwise_append.mp hsteps).1
  exact hbefore.snoc (hbefore.createsFresh hsteps)

/-- A step of a run starts from what the run has left, and creates nothing that is there. -/
theorem enrolled_before {schedule : Schedule Move} (hfresh : FreshTopics schedule)
    {defaultTtl : Nat} {step : Step Move}
    (hstep : step ∈ schedule.steps Move.act (.started .empty defaultTtl)) :
    step.before.store.Agrees ∧ CreatesFresh step := by
  obtain ⟨earlier, later, hsplit⟩ := List.append_of_mem hstep
  obtain ⟨front, back, rfl, hfront, hbefore⟩ :=
    Schedule.exists_run_to_of_steps_eq Move.act hsplit
  have hfreshFront : FreshTopics front := (List.pairwise_append.mp hfresh).1
  have henrolled := enrolled_final hfreshFront defaultTtl
  rw [hbefore, hfront] at henrolled
  have hsteps := hfresh.steps (.started .empty defaultTtl)
  rw [hsplit, ← List.singleton_append, ← List.append_assoc] at hsteps
  exact ⟨henrolled.agrees, henrolled.createsFresh (List.pairwise_append.mp hsteps).1⟩

/-! ## Storage that works -/

section

variable {conditions : Conditions} {broker : Broker}

theorem perform_listSubscriptions (h : conditions.Faultless) (subscriber : ClientId) :
    (listSubscriptions subscriber).perform conditions broker =
      (.ok (broker.store.subscribedTopics subscriber), broker) := by
  simp [listSubscriptions, Storage.listSubscriptions, h .listSubscriptions]

/-- To subscribe again changes nothing. -/
theorem registerSubscriber_again (h : conditions.Faultless) {subscriber : ClientId}
    {topicName : String} (hlisted : topicName ∈ broker.store.subscribedTopics subscriber) :
    (registerSubscriber subscriber topicName).perform conditions broker = (.ok (), broker) := by
  simp [registerSubscriber, Storage.listSubscriptions, h .listSubscriptions, hlisted]

/-- To leave a topic that is known but not subscribed to changes nothing. -/
theorem deregisterSubscriber_again (h : conditions.Faultless) (hagrees : broker.store.Agrees)
    {subscriber : ClientId} {topicName topicId : String}
    (hknown : broker.store.topicId? topicName = some topicId)
    (hunlisted : topicName ∉ broker.store.subscribedTopics subscriber) :
    (deregisterSubscriber subscriber topicName).perform conditions broker = (.ok (), broker) := by
  have hrow :
      broker.store.subscriptions.find? (Store.subscriberKey subscriber ++ topicId) = none := by
    rw [← Option.not_isSome_iff_eq_none]
    intro hrow
    exact hunlisted ((Store.mem_subscribedTopics_iff hagrees).mpr ⟨topicId, hknown, hrow⟩)
  have hsame : broker.store.unsubscribe subscriber topicId = broker.store := by
    rw [Store.unsubscribe, Table.erase_of_find?_eq_none hrow]
  simp [deregisterSubscriber, resolve, Storage.findTopic, Storage.removeSubscription, h .findTopic,
    h .removeSubscription, hknown, hsame]

/-- What is answered about a topic that nobody created. -/
def noTopic (topicName : String) : BrokerError :=
  .notFound ("topic '" ++ topicName ++ "' not found")

theorem perform_resolve_unknown (h : conditions.Faultless) {topicName : String}
    (hunknown : broker.store.topicId? topicName = none) :
    (resolve topicName).perform conditions broker = (.error (noTopic topicName), broker) := by
  simp [resolve, Storage.findTopic, h .findTopic, hunknown, noTopic]

theorem registerSubscriber_unknown (h : conditions.Faultless) (hagrees : broker.store.Agrees)
    (subscriber : ClientId) {topicName : String}
    (hunknown : broker.store.topicId? topicName = none) :
    (registerSubscriber subscriber topicName).perform conditions broker =
      (.error (noTopic topicName), broker) := by
  have hunlisted : topicName ∉ broker.store.subscribedTopics subscriber := by
    rw [Store.mem_subscribedTopics_iff hagrees]
    rintro ⟨topicId, hknown, -⟩
    cases hunknown.symm.trans hknown
  simp [registerSubscriber, Storage.listSubscriptions, h .listSubscriptions, hunlisted,
    perform_resolve_unknown h hunknown]

theorem deregisterSubscriber_unknown (h : conditions.Faultless) (subscriber : ClientId)
    {topicName : String} (hunknown : broker.store.topicId? topicName = none) :
    (deregisterSubscriber subscriber topicName).perform conditions broker =
      (.error (noTopic topicName), broker) := by
  simp [deregisterSubscriber, perform_resolve_unknown h hunknown]

/-- A known topic can be subscribed to. -/
theorem registerSubscriber_known (h : conditions.Faultless) (subscriber : ClientId)
    {topicName topicId : String} (hknown : broker.store.topicId? topicName = some topicId) :
    ((registerSubscriber subscriber topicName).perform conditions broker).1 = .ok () := by
  by_cases hlisted : topicName ∈ broker.store.subscribedTopics subscriber
  · rw [registerSubscriber_again h hlisted]
  · simp [registerSubscriber, resolve, Storage.listSubscriptions, Storage.findTopic,
      Storage.insertSubscriber, Storage.insertSubscription, h .listSubscriptions, h .findTopic,
      h .insertSubscriber, h .insertSubscription, hlisted, hknown]

/-- What a subscriber's calls answer, and what they change, while storage works. -/
structure Serves (conditions : Conditions) (broker : Broker) (subscriber : ClientId) : Prop where
  list : (listSubscriptions subscriber).perform conditions broker =
    (.ok (broker.store.subscribedTopics subscriber), broker)
  register : ∀ topicName topicId, broker.store.topicId? topicName = some topicId →
    ((registerSubscriber subscriber topicName).perform conditions broker).1 = .ok ()
  registerAgain : ∀ topicName ∈ broker.store.subscribedTopics subscriber,
    (registerSubscriber subscriber topicName).perform conditions broker = (.ok (), broker)
  registerUnknown : ∀ topicName, broker.store.topicId? topicName = none →
    (registerSubscriber subscriber topicName).perform conditions broker =
      (.error (noTopic topicName), broker)
  deregisterAgain : ∀ topicName topicId, broker.store.topicId? topicName = some topicId →
    topicName ∉ broker.store.subscribedTopics subscriber →
      (deregisterSubscriber subscriber topicName).perform conditions broker = (.ok (), broker)
  deregisterUnknown : ∀ topicName, broker.store.topicId? topicName = none →
    (deregisterSubscriber subscriber topicName).perform conditions broker =
      (.error (noTopic topicName), broker)

theorem serves_of_faultless (h : conditions.Faultless) (hagrees : broker.store.Agrees)
    (subscriber : ClientId) : Serves conditions broker subscriber where
  list := perform_listSubscriptions h subscriber
  register _ _ hknown := registerSubscriber_known h subscriber hknown
  registerAgain _ hlisted := registerSubscriber_again h hlisted
  registerUnknown _ hunknown := registerSubscriber_unknown h hagrees subscriber hunknown
  deregisterAgain _ _ hknown hunlisted := deregisterSubscriber_again h hagrees hknown hunlisted
  deregisterUnknown _ hunknown := deregisterSubscriber_unknown h subscriber hunknown

end

/-! ## All runs -/

/-- What subscriptions are in a run, whatever fails and whenever the engine ends. -/
structure SubscriptionsFollow (schedule : Schedule Move) (defaultTtl : Nat) : Prop where
  /-- A subscriber is listed with the topics that it subscribed to and did not leave since. -/
  listed : ∀ subscriber topicName,
    topicName ∈ (schedule.final Move.act (.started .empty defaultTtl)).store.subscribedTopics
        subscriber ↔
      Since (Subscribes subscriber topicName) (Unsubscribes subscriber topicName)
        (schedule.steps Move.act (.started .empty defaultTtl))
  once : ∀ subscriber,
    ((schedule.final Move.act (.started .empty defaultTtl)).store.subscribedTopics
      subscriber).Nodup
  /-- What is no call of a subscriber's own to subscribe or to leave keeps its list as it is. -/
  others : ∀ step ∈ schedule.steps Move.act (.started .empty defaultTtl), ∀ subscriber,
    (∀ topicName, step.event ≠ .call (.registerSubscriber subscriber topicName)) →
      (∀ topicName, step.event ≠ .call (.deregisterSubscriber subscriber topicName)) →
        (step.after Move.act).store.subscribedTopics subscriber =
          step.before.store.subscribedTopics subscriber
  serves : ∀ conditions : Conditions, conditions.Faultless → ∀ subscriber,
    Serves conditions (schedule.final Move.act (.started .empty defaultTtl)) subscriber

/-- A subscriber's topics are a set that only its own calls change, one topic at a time. -/
theorem subscriptions_follow (defaultTtl : Nat) (schedule : Schedule Move)
    (hfresh : FreshTopics schedule) : SubscriptionsFollow schedule defaultTtl := by
  have henrolled := enrolled_final hfresh defaultTtl
  refine ⟨henrolled.listed, ?_, ?_, ?_⟩
  · exact Store.nodup_subscribedTopics henrolled.agrees
  · intro step hstep subscriber hregister hderegister
    obtain ⟨hagrees, hcreates⟩ := enrolled_before hfresh hstep
    exact subscribedTopics_after hcreates hagrees hregister hderegister
  · intro conditions hfaultless subscriber
    exact serves_of_faultless hfaultless henrolled.agrees subscriber

/-- Two subscribers of extreme ids share a topic, and one of them leaves it again. -/
def twoSubscribers : Schedule Move :=
  [(.calm "a", .createTopic "news"), (.calm "b", .createTopic "sports"),
    (.calm "c", .call (.registerSubscriber ⟨-9223372036854775808, by decide⟩ "news")),
    (.calm "d", .call (.registerSubscriber ⟨9223372036854775807, by decide⟩ "news")),
    (.calm "e", .restart),
    (.calm "f", .call (.registerSubscriber ⟨-9223372036854775808, by decide⟩ "sports")),
    (.calm "g", .call (.deregisterSubscriber ⟨-9223372036854775808, by decide⟩ "news"))]

theorem subscriptions_follow_twoSubscribers :
    FreshTopics twoSubscribers ∧ SubscriptionsFollow twoSubscribers 60 := by
  have hfresh : FreshTopics twoSubscribers := by
    have hids : twoSubscribers.Pairwise fun entry later =>
        entry.1.fresh 0 ≠ later.1.fresh 0 := by decide
    exact hids.imp fun hne _ _ _ _ => hne
  exact ⟨hfresh, subscriptions_follow 60 twoSubscribers hfresh⟩

end Registry

end TopicBroker
