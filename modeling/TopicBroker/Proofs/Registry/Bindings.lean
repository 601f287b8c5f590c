import TopicBroker.Proofs.Registry.Topics
import TopicBroker.Proofs.Store.Keys

/-! # Bindings follow the last call that succeeded

The record of a publisher is what its own successful calls make of it, and nobody else's. -/

namespace TopicBroker

/-! ## Records -/

namespace Store

/-- The record that a binding to a topic leaves. An empty topic id stands for none. -/
def recordOf (topicId : String) : PublisherRecord :=
  if topicId.isEmpty then .unbound else .bound topicId

theorem publisher_bind (client other : ClientId) (topicId : String) (store : Store) :
    (store.bind client topicId).publisher other =
      if other = client then recordOf topicId else store.publisher other := by
  by_cases h : other = client
  · simp [publisher, bind, Table.find?_insert, h, recordOf]
  · simp [publisher, bind, Table.find?_insert, clientKey_inj, h]

theorem publisher_unbind_self {client : ClientId} {topicId : String} {store : Store}
    (h : store.publisher client = .bound topicId) :
    (store.unbind client).publisher client = .unbound := by
  have hknown : store.publishers.contains (clientKey client) = true := by
    unfold publisher at h
    split at h
    · cases h
    · next id hid => simp [Table.contains, hid]
  rw [unbind, if_pos hknown, publisher_bind, if_pos rfl]
  rfl

theorem publisher_unbind_of_ne {client other : ClientId} (h : other ≠ client) (store : Store) :
    (store.unbind client).publisher other = store.publisher other := by
  unfold unbind
  split
  · rw [publisher_bind, if_neg h]
  · rfl

theorem publisher_insertTopic (client : ClientId) (name freshId : String) (store : Store) :
    (store.insertTopic name freshId).2.publisher client = store.publisher client := by
  unfold insertTopic
  split <;> rfl

end Store

namespace Registry

open TopicBroker.Action

/-! ## Steps that succeed -/

/-- The step binds a publisher to a topic. -/
def Registers (publisher : ClientId) (topicName : String) (step : Step Move) : Prop :=
  step.reply Move.act = ⟨.call (.registerPublisher publisher topicName), .ok ()⟩

/-- The step takes the binding of a publisher away. -/
def Deregisters (publisher : ClientId) (step : Step Move) : Prop :=
  step.reply Move.act = ⟨.call (.deregisterPublisher publisher), .ok ()⟩

theorem Registers.event {publisher : ClientId} {topicName : String} {step : Step Move}
    (h : Registers publisher topicName step) :
    step.event = .call (.registerPublisher publisher topicName) :=
  congrArg Sigma.fst h

theorem Deregisters.event {publisher : ClientId} {step : Step Move}
    (h : Deregisters publisher step) : step.event = .call (.deregisterPublisher publisher) :=
  congrArg Sigma.fst h

/-- What a step does to the record of a publisher. -/
inductive Rebinds (publisher : ClientId) (step : Step Move) : Prop where
  | registers {topicName topicId : String} (registers : Registers publisher topicName step)
      (known : step.before.store.topicId? topicName = some topicId)
      (after : (step.after Move.act).store.publisher publisher = Store.recordOf topicId)
  | deregisters {topicId : String} (deregisters : Deregisters publisher step)
      (before : step.before.store.publisher publisher = .bound topicId)
      (after : (step.after Move.act).store.publisher publisher = .unbound)
  | keeps (others : ∀ topicName, ¬ Registers publisher topicName step)
      (other : ¬ Deregisters publisher step)
      (after : (step.after Move.act).store.publisher publisher =
        step.before.store.publisher publisher)

/-- A step that is no success of the publisher's own leaves its record. -/
theorem Rebinds.of_reply {publisher : ClientId} {step : Step Move} {call : ServiceCall}
    {answer : Except BrokerError call.Answer} (reply : step.reply Move.act = ⟨.call call, answer⟩)
    (hregister : ∀ topicName, call = .registerPublisher publisher topicName →
      ∃ error, answer = .error error)
    (hderegister : call = .deregisterPublisher publisher → ∃ error, answer = .error error)
    (after : (step.after Move.act).store.publisher publisher =
      step.before.store.publisher publisher) : Rebinds publisher step := by
  refine .keeps ?_ ?_ after
  · intro topicName h
    rw [Registers, reply] at h
    cases h
    obtain ⟨error, herror⟩ := hregister topicName rfl
    cases herror
  · intro h
    rw [Deregisters, reply] at h
    cases h
    obtain ⟨error, herror⟩ := hderegister rfl
    cases herror

theorem rebinds (publisher : ClientId) (step : Step Move) : Rebinds publisher step := by
  cases happens step with
  | @call call answer start reply records effect =>
      have hsame : start.store.publisher publisher = step.before.store.publisher publisher :=
        congrArg (·.1.publisher publisher) records
      generalize hafter : step.after Move.act = after at effect
      cases effect with
      | @registerPublisher client topicName topicId known =>
          have hrecord := Store.publisher_bind client publisher topicId start.store
          by_cases hclient : publisher = client
          · subst hclient
            have hknown : step.before.store.topicId? topicName = some topicId :=
              (congrArg (·.1.topicId? topicName) records).symm.trans known
            rw [if_pos rfl] at hrecord
            exact .registers reply hknown (hafter ▸ hrecord)
          · rw [if_neg hclient, hsame] at hrecord
            refine .of_reply reply ?_ nofun (hafter ▸ hrecord)
            rintro topicName ⟨⟩
            exact absurd rfl hclient
      | @deregisterPublisher client topicId bound =>
          by_cases hclient : publisher = client
          · subst hclient
            exact .deregisters reply (hsame.symm.trans bound)
              (hafter ▸ Store.publisher_unbind_self bound)
          · have hrecord := Store.publisher_unbind_of_ne hclient start.store
            refine .of_reply reply nofun ?_ (hafter ▸ hrecord.trans hsame)
            rintro ⟨⟩
            exact absurd rfl hclient
      | nothing call error =>
          exact .of_reply reply (fun _ _ => ⟨error, rfl⟩) (fun _ => ⟨error, rfl⟩) (hafter ▸ hsame)
      | _ => exact .of_reply reply nofun nofun (hafter ▸ hsame)
  | topic event created =>
      refine .keeps (fun _ h => ?_) (fun h => ?_) ?_
      · cases event.symm.trans h.event
      · cases event.symm.trans h.event
      · rw [created]
        exact Store.publisher_insertTopic publisher _ _ _
  | kept quiet records =>
      refine .keeps (fun _ h => quiet _ h.event) (fun h => quiet _ h.event) ?_
      exact congrArg (·.1.publisher publisher) records

/-! ## Runs -/

/-- The step binds a publisher to the topic of an id. -/
def BindsTo (publisher : ClientId) (topicId : String) (step : Step Move) : Prop :=
  ∃ topicName, Registers publisher topicName step ∧
    step.before.store.topicId? topicName = some topicId

/-- The step is a success of a publisher's own that changes its record. -/
def Changes (publisher : ClientId) (step : Step Move) : Prop :=
  (∃ topicName, Registers publisher topicName step) ∨ Deregisters publisher step

/-- The record of a publisher is what its last successful call made of it. -/
structure Follows (publisher : ClientId) (steps : List (Step Move)) (broker : Broker) : Prop where
  missing : broker.store.publisher publisher = .missing ↔
    ∀ step ∈ steps, ∀ topicName, ¬ Registers publisher topicName step
  bound : ∀ topicId, broker.store.publisher publisher = .bound topicId ↔
    Since (BindsTo publisher topicId) (Changes publisher) steps
  unbound : broker.store.publisher publisher = .unbound ↔
    Since (Deregisters publisher) (Changes publisher) steps

theorem follows_nil (publisher : ClientId) (defaultTtl : Nat) :
    Follows publisher [] (.started .empty defaultTtl) := by
  have hmissing : (Broker.started .empty defaultTtl).store.publisher publisher = .missing := rfl
  refine ⟨iff_of_true hmissing (fun _ h => nomatch h), fun topicId => ?_, ?_⟩
  · rw [hmissing]
    exact iff_of_false nofun not_since_nil
  · rw [hmissing]
    exact iff_of_false nofun not_since_nil

theorem Registers.changes {publisher : ClientId} {topicName : String} {step : Step Move}
    (h : Registers publisher topicName step) : Changes publisher step :=
  .inl ⟨topicName, h⟩

theorem Registers.not_deregisters {publisher : ClientId} {topicName : String} {step : Step Move}
    (h : Registers publisher topicName step) : ¬ Deregisters publisher step := by
  intro h'
  cases h.event.symm.trans h'.event

theorem Registers.bindsTo_iff {publisher : ClientId} {topicName topicId other : String}
    {step : Step Move} (h : Registers publisher topicName step)
    (hknown : step.before.store.topicId? topicName = some topicId) :
    BindsTo publisher other step ↔ topicId = other := by
  constructor
  · rintro ⟨otherName, hother, hotherKnown⟩
    cases h.symm.trans hother
    exact Option.some.inj (hknown.symm.trans hotherKnown)
  · rintro rfl
    exact ⟨topicName, h, hknown⟩

theorem BindsTo.registers {publisher : ClientId} {topicId : String} {step : Step Move}
    (h : BindsTo publisher topicId step) : ∃ topicName, Registers publisher topicName step :=
  let ⟨topicName, hregisters, _⟩ := h
  ⟨topicName, hregisters⟩

theorem Follows.snoc {publisher : ClientId} {steps : List (Step Move)} {step : Step Move}
    (h : Follows publisher steps step.before)
    (hids : ∀ name topicId, step.before.store.topicId? name = some topicId → topicId ≠ "") :
    Follows publisher (steps ++ [step]) (step.after Move.act) := by
  cases rebinds publisher step with
  | @registers topicName topicId hregisters hknown hafter =>
      have hrecord : (step.after Move.act).store.publisher publisher = .bound topicId := by
        simp [hafter, Store.recordOf, hids topicName topicId hknown]
      refine ⟨?_, ?_, ?_⟩
      · rw [hrecord]
        exact iff_of_false nofun fun hnone => hnone step (by simp) topicName hregisters
      · simp [hrecord, since_append_singleton, hregisters.bindsTo_iff hknown, hregisters.changes]
      · simp [hrecord, since_append_singleton, hregisters.not_deregisters, hregisters.changes]
  | @deregisters topicId hderegisters hbefore hafter =>
      have hchanges : Changes publisher step := .inr hderegisters
      have hbinds (other : String) : ¬ BindsTo publisher other step := by
        intro hbinds
        obtain ⟨topicName, hregisters⟩ := hbinds.registers
        exact hregisters.not_deregisters hderegisters
      refine ⟨?_, ?_, ?_⟩
      · rw [hafter]
        refine iff_of_false nofun fun hnone => ?_
        obtain ⟨earlier, first, later, rfl, hfirst, -⟩ := (h.bound topicId).mp hbefore
        obtain ⟨topicName, hregisters⟩ := hfirst.registers
        exact hnone first (by simp) topicName hregisters
      · simp [hafter, since_append_singleton, hbinds, hchanges]
      · simp [hafter, since_append_singleton, hderegisters]
  | keeps hothers hother hafter =>
      have hchanges : ¬ Changes publisher step := by
        rintro (⟨topicName, hregisters⟩ | hderegisters)
        · exact hothers topicName hregisters
        · exact hother hderegisters
      have hbinds (topicId : String) : ¬ BindsTo publisher topicId step := by
        intro hbinds
        obtain ⟨topicName, hregisters⟩ := hbinds.registers
        exact hothers topicName hregisters
      refine ⟨?_, ?_, ?_⟩
      · rw [hafter, h.missing, List.forall_mem_append]
        simp [hothers]
      · simp [hafter, h.bound, since_append_singleton, hbinds, hchanges]
      · simp [hafter, h.unbound, since_append_singleton, hother, hchanges]

/-- A known topic has an id, since ids are not empty. -/
theorem ids_after {step : Step Move}
    (hfresh : ∀ name, step.event = .createTopic name → step.conditions.fresh 0 ≠ "")
    (h : ∀ name topicId, step.before.store.topicId? name = some topicId → topicId ≠ "")
    {name topicId : String}
    (hknown : (step.after Move.act).store.topicId? name = some topicId) : topicId ≠ "" := by
  rw [Store.topicId?] at hknown
  rcases topics_after step with ⟨htopics, -⟩ | ⟨other, hevent, -, htopics, -⟩
  · rw [htopics] at hknown
    exact h name topicId hknown
  · rw [htopics, Table.find?_insert] at hknown
    split at hknown
    · cases hknown
      exact hfresh other hevent
    · exact h name topicId hknown

theorem follows_final (publisher : ClientId) (defaultTtl : Nat) {schedule : Schedule Move}
    (hfresh : ∀ entry ∈ schedule, ∀ name, entry.2 = .createTopic name → entry.1.fresh 0 ≠ "") :
    Follows publisher (schedule.steps Move.act (.started .empty defaultTtl))
      (schedule.final Move.act (.started .empty defaultTtl)) := by
  have hsteps : ∀ step ∈ schedule.steps Move.act (.started .empty defaultTtl), ∀ name,
      step.event = .createTopic name → step.conditions.fresh 0 ≠ "" :=
    fun step hstep => hfresh _ (Schedule.entry_of_mem_steps Move.act hstep)
  have hrun := Schedule.run_induction Move.act
    (motive := fun steps broker =>
      (∀ step ∈ steps, ∀ name, step.event = .createTopic name → step.conditions.fresh 0 ≠ "") →
        Follows publisher steps broker ∧
          ∀ name topicId, broker.store.topicId? name = some topicId → topicId ≠ "")
    (fun _ => ⟨follows_nil publisher defaultTtl, fun _ _ h => by cases h⟩) ?_ schedule
  · exact (hrun hsteps).1
  · intro steps step ih hall
    obtain ⟨hfront, hlast⟩ := List.forall_mem_append.mp hall
    obtain ⟨hfollows, hids⟩ := ih hfront
    exact ⟨hfollows.snoc hids,
      fun _ _ hknown => ids_after (hlast step (by simp)) hids hknown⟩

/-! ## Storage that works -/

section

variable {conditions : Conditions} {broker : Broker}

theorem registerPublisher_ok_iff (h : conditions.Faultless) (publisher : ClientId)
    (topicName : String) :
    ((registerPublisher publisher topicName).perform conditions broker).1 = .ok () ↔
      ∃ topicId, broker.store.topicId? topicName = some topicId := by
  have hfault (operation : StorageOperation) : conditions.fault operation = none := h operation
  simp only [registerPublisher, resolve, Storage.findTopic, Storage.findPublisher, perform_bind,
    Storage.perform_look, hfault]
  cases broker.store.topicId? topicName with
  | none => exact iff_of_false (by simp) (by simp)
  | some topicId =>
      refine iff_of_true ?_ ⟨topicId, rfl⟩
      cases hrecord : broker.store.publisher publisher <;>
        simp [hrecord, Storage.insertPublisher, Storage.updatePublisher, hfault]

theorem deregisterPublisher_ok_iff (h : conditions.Faultless) (publisher : ClientId) :
    ((deregisterPublisher publisher).perform conditions broker).1 = .ok () ↔
      ∃ topicId, broker.store.publisher publisher = .bound topicId := by
  have hfault (operation : StorageOperation) : conditions.fault operation = none := h operation
  simp only [deregisterPublisher, Storage.findPublisher, perform_bind, Storage.perform_look, hfault]
  cases broker.store.publisher publisher with
  | missing | unbound => exact iff_of_false (by simp [PublisherRecord.topicId?]) (by simp)
  | bound topicId =>
      refine iff_of_true ?_ ⟨topicId, rfl⟩
      simp [PublisherRecord.topicId?, Storage.clearPublisher, hfault]

/-- A time that cannot be read is an invalid argument. -/
theorem invalidArgument_of_parse {raw : String} {error : BrokerError}
    (h : Timestamp.parse raw = .error error) : ∃ detail, error = .invalidArgument detail := by
  unfold Timestamp.parse at h
  split at h
  · cases h
  · cases h
    exact ⟨_, rfl⟩

theorem invalidArgument_of_stamp {now : Instant} {ttl : Span} {id : String} {draft : Draft}
    {error : BrokerError} (h : stamp now ttl id draft = .error error) :
    ∃ detail, error = .invalidArgument detail := by
  unfold stamp at h
  cases hcreated : creation now draft with
  | error fault =>
      rw [hcreated] at h
      cases h
      unfold creation at hcreated
      split at hcreated
      · exact invalidArgument_of_parse hcreated
      · cases hcreated
  | ok created =>
      rw [hcreated, ok_bind] at h
      cases hexpires : expiry created ttl draft with
      | ok expires =>
          rw [hexpires] at h
          cases h
      | error fault =>
          rw [hexpires] at h
          cases h
          unfold expiry at hexpires
          split at hexpires
          · exact invalidArgument_of_parse hexpires
          · split at hexpires
            · cases hexpires
            · cases hexpires
              exact ⟨_, rfl⟩

/-- An enqueue that fails is not accepted, or the engine does not run. -/
theorem enqueue_ne_failedPrecondition (conditions : Conditions) (broker : Broker)
    (topicId : String) (message : Message) (detail : String) :
    ((Engine.enqueue topicId message).perform conditions broker).1 ≠
      .error (.failedPrecondition detail) := by
  rw [Engine.enqueue, Engine.perform_call_settled]
  cases broker.engine.running with
  | false => simp
  | true =>
      by_cases haccepts : Engine.Accepts topicId message
      · simp [Engine.perform_enqueue_of_accepts _ _ haccepts]
      · obtain ⟨reason, hperform⟩ := Engine.perform_enqueue_of_not_accepts haccepts
        simp [hperform]

theorem publish_failedPrecondition_iff (h : conditions.Faultless) (publisher : ClientId)
    (draft : Draft) (detail : String) :
    ((publish publisher draft).perform conditions broker).1 =
        .error (.failedPrecondition detail) ↔
      detail = "not registered to any topic" ∧
        ∀ topicId, broker.store.publisher publisher ≠ .bound topicId := by
  have hfault (operation : StorageOperation) : conditions.fault operation = none := h operation
  simp only [publish, Storage.findPublisher, perform_bind, Storage.perform_look, hfault]
  cases broker.store.publisher publisher with
  | missing | unbound =>
      constructor
      · rintro ⟨⟩
        exact ⟨rfl, by simp⟩
      · rintro ⟨rfl, -⟩
        rfl
  | bound topicId =>
      refine iff_of_false ?_ fun hnot => hnot.2 topicId rfl
      simp only [PublisherRecord.topicId?, perform_bind, perform_read, perform_get,
        perform_liftExcept]
      cases hstamp : stamp conditions.now broker.defaultTtl (conditions.fresh 0) draft with
      | error error =>
          obtain ⟨reason, rfl⟩ := invalidArgument_of_stamp hstamp
          simp
      | ok message =>
          have henqueue :=
            enqueue_ne_failedPrecondition conditions broker topicId message detail
          dsimp only
          rcases hperform : (Engine.enqueue topicId message).perform conditions broker with
            ⟨_ | reply, next⟩
          · rw [hperform] at henqueue
            exact fun heq => henqueue (by injection heq with heq; rw [heq])
          · simp [Storage.insertMessage, hfault]

end

/-- What the calls of a publisher answer when storage works. -/
structure Works (conditions : Conditions) (broker : Broker) (publisher : ClientId) : Prop where
  register : ∀ topicName,
    ((registerPublisher publisher topicName).perform conditions broker).1 = .ok () ↔
      ∃ topicId, broker.store.topicId? topicName = some topicId
  deregister : ((deregisterPublisher publisher).perform conditions broker).1 = .ok () ↔
    ∃ topicId, broker.store.publisher publisher = .bound topicId
  publish : ∀ draft detail, ((publish publisher draft).perform conditions broker).1 =
      .error (.failedPrecondition detail) ↔
    detail = "not registered to any topic" ∧
      ∀ topicId, broker.store.publisher publisher ≠ .bound topicId

theorem works_of_faultless (h : conditions.Faultless) (broker : Broker) (publisher : ClientId) :
    Works conditions broker publisher where
  register := registerPublisher_ok_iff h publisher
  deregister := deregisterPublisher_ok_iff h publisher
  publish := publish_failedPrecondition_iff h publisher

/-! ## All runs -/

/-- What bindings are in a run, whatever fails and whenever the engine ends. -/
structure BindingsFollow (schedule : Schedule Move) (defaultTtl : Nat) : Prop where
  record : ∀ publisher, Follows publisher (schedule.steps Move.act (.started .empty defaultTtl))
    (schedule.final Move.act (.started .empty defaultTtl))
  /-- A publisher that is known stays known. -/
  known : ∀ step ∈ schedule.steps Move.act (.started .empty defaultTtl), ∀ publisher,
    step.before.store.publisher publisher ≠ .missing →
      (step.after Move.act).store.publisher publisher ≠ .missing
  /-- What is no call of a publisher's own to bind it or to unbind it leaves its record. -/
  others : ∀ step ∈ schedule.steps Move.act (.started .empty defaultTtl), ∀ publisher,
    (∀ topicName, step.event ≠ .call (.registerPublisher publisher topicName)) →
      step.event ≠ .call (.deregisterPublisher publisher) →
        (step.after Move.act).store.publisher publisher = step.before.store.publisher publisher
  /-- The topic that a publisher is bound to keeps its id. -/
  topics : ∀ step ∈ schedule.steps Move.act (.started .empty defaultTtl), ∀ name topicId,
    step.before.store.topicId? name = some topicId →
      (step.after Move.act).store.topicId? name = some topicId
  works : ∀ conditions : Conditions, conditions.Faultless → ∀ publisher,
    Works conditions (schedule.final Move.act (.started .empty defaultTtl)) publisher

/-- A publisher is bound by the last call of its own that succeeded, and by nothing else. -/
theorem bindings_follow (defaultTtl : Nat) (schedule : Schedule Move)
    (hfresh : ∀ entry ∈ schedule, ∀ name, entry.2 = .createTopic name → entry.1.fresh 0 ≠ "") :
    BindingsFollow schedule defaultTtl := by
  refine ⟨fun publisher => follows_final publisher defaultTtl hfresh, ?_, ?_, ?_, ?_⟩
  · intro step _ publisher hbefore
    cases rebinds publisher step with
    | registers hregisters hknown hafter =>
        rw [hafter, Store.recordOf]
        split <;> exact nofun
    | deregisters hderegisters hbound hafter =>
        rw [hafter]
        exact nofun
    | keeps hothers hother hafter =>
        rw [hafter]
        exact hbefore
  · intro step _ publisher hregister hderegister
    cases rebinds publisher step with
    | registers hregisters => exact absurd hregisters.event (hregister _)
    | deregisters hderegisters => exact absurd hderegisters.event hderegister
    | keeps hothers hother hafter => exact hafter
  · intro step _ name topicId hknown
    exact topicId?_after hknown
  · intro conditions hfaultless publisher
    exact works_of_faultless hfaultless _ publisher

/-- A publisher is bound to one topic, then to another one, and then to none. -/
def twoTopics : Schedule Move :=
  [(.calm "a", .createTopic "news"), (.calm "b", .createTopic "sports"),
    (.calm "c", .call (.registerPublisher ⟨7, by decide⟩ "news")), (.calm "d", .restart),
    (.calm "e", .call (.registerPublisher ⟨7, by decide⟩ "sports")),
    (.calm "f", .call (.deregisterPublisher ⟨7, by decide⟩))]

theorem bindings_follow_twoTopics :
    (∀ entry ∈ twoTopics, ∀ name, entry.2 = .createTopic name → entry.1.fresh 0 ≠ "") ∧
      BindingsFollow twoTopics 60 := by
  have hfresh : ∀ entry ∈ twoTopics, ∀ name, entry.2 = .createTopic name →
      entry.1.fresh 0 ≠ "" := by
    have hids : ∀ entry ∈ twoTopics, entry.1.fresh 0 ≠ "" := by decide
    exact fun entry hentry _ _ => hids entry hentry
  exact ⟨hfresh, bindings_follow 60 twoTopics hfresh⟩

end Registry

end TopicBroker
