import TopicBroker.Proofs.Engine.Fate
import TopicBroker.Proofs.Registry.Operations
import TopicBroker.Proofs.Store.Checkpoint

/-! # What becomes of published messages

Every message that is read was published on the topic that it is read from, and is read once. What a
publisher was told the id of is in the log for good. The log may lack messages that are in line,
since a message is queued before it is logged, but it never holds one that was not. -/

namespace TopicBroker

namespace Registry

/-! ## Events -/

/-- What may happen to the broker: a call of its registry, or the end of its engine. An engine that
ends during a call has ended before it or after it, as far as the call can tell. -/
inductive Event where
  | call (call : ServiceCall)
  | kill

/-- What an event answers. -/
abbrev Event.Answer : Event → Type
  | call c => c.Answer
  | kill => Unit

/-- What an event does. -/
def Event.act : (event : Event) → Action event.Answer
  | call c => carryOut c
  | kill => Engine.kill

/-- The event is a call that publishes. -/
def Event.IsPublish : Event → Prop
  | call (.publish ..) => True
  | _ => False

/-- No two publishing calls meet the same id. -/
def Fresh (schedule : Schedule Event) : Prop :=
  schedule.Pairwise fun entry later =>
    entry.2.IsPublish → later.2.IsPublish → entry.1.fresh 0 ≠ later.1.fresh 0

section

variable (topicId : String) (step : Step Event)

/-- The publication that a call puts in line. -/
def submitted? : Option Publication :=
  match step.event with
  | .call (.publish publisher draft) =>
    (submission publisher draft step.conditions step.before).toOption
  | _ => none

/-- The publication that a call puts in line and logs. -/
def logged? : Option Publication :=
  match step.conditions.fault .insertMessage with
  | some _ => none
  | none => submitted? step

/-- The message that a call puts in line for a topic. -/
def queued : List Message :=
  match submitted? step with
  | some publication => if publication.topicId = topicId then [publication.message] else []
  | none => []

/-- The message that a call reads from a topic. -/
def readFrom : List Message :=
  match step.reply Event.act with
  | ⟨.call (.readMessage _ name), .ok (some message)⟩ =>
    if step.before.store.topicId? name = some topicId then [message] else []
  | _ => []

end

/-! ## Steps -/

/-- Messages get in line at the back and are read at the front; the others in line stay there in
order, or are lost. The log grows by what was put in line. -/
structure StepSpec (step : Step Event) : Prop where
  mailbox : (step.after Event.act).engine.mailbox = []
  topics : (step.after Event.act).store.topics = step.before.store.topics
  inLine : ∀ topicId, (readFrom topicId step ++ ((step.after Event.act).queue topicId).live).Sublist
    ((step.before.queue topicId).live ++ queued topicId step)
  log : (step.after Event.act).store.log =
    match logged? step with
    | some publication =>
      step.before.store.log.insert publication.message.id (Record.toLine publication.row)
    | none => step.before.store.log

theorem logged?_of_none {step : Step Event} (h : submitted? step = none) : logged? step = none := by
  unfold logged?
  split
  · rfl
  · exact h

theorem spec_of_kept {step : Step Event} (hmailbox : step.before.engine.mailbox = [])
    (hkept : messagesAndTopics (step.after Event.act) = messagesAndTopics step.before)
    (hsubmitted : submitted? step = none) (hread : ∀ topicId, readFrom topicId step = []) :
    StepSpec step := by
  obtain ⟨hengine, hlog, htopics⟩ : _ ∧ _ ∧ _ := by
    simpa only [messagesAndTopics, Prod.mk.injEq] using hkept
  refine ⟨by rw [hengine, hmailbox], htopics, ?_, by rw [logged?_of_none hsubmitted, hlog]⟩
  intro topicId
  simp [hread, Broker.queue, hengine]

theorem queue_enqueued (publication : Publication) (broker : Broker) (topicId : String) :
    (enqueued publication broker).queue topicId =
      if topicId = publication.topicId then
        { broker.queue topicId with
          live := (broker.queue topicId).live ++ [publication.message] }
      else broker.queue topicId := by
  have hqueue := Queues.topic_enqueue publication.topicId topicId publication.message
    broker.engine.queues
  by_cases h : topicId = publication.topicId
  · subst h
    simpa [enqueued, Broker.queue, Engine.mapQueues] using hqueue
  · simpa [enqueued, Broker.queue, Engine.mapQueues, h] using hqueue

theorem live_enqueued {step : Step Event} {publication : Publication}
    (h : submitted? step = some publication) (topicId : String) :
    ((enqueued publication step.before).queue topicId).live =
      (step.before.queue topicId).live ++ queued topicId step := by
  rw [queue_enqueued, queued, h]
  by_cases htopic : topicId = publication.topicId
  · simp [htopic]
  · have hne : publication.topicId ≠ topicId := fun e => htopic e.symm
    simp [htopic, hne]

theorem readFrom_publish (topicId : String) (before : Broker) (conditions : Conditions)
    (publisher : ClientId) (draft : Draft) :
    readFrom topicId ⟨before, conditions, .call (.publish publisher draft)⟩ = [] :=
  rfl

theorem spec_publish {before : Broker} (hmailbox : before.engine.mailbox = [])
    (conditions : Conditions) (publisher : ClientId) (draft : Draft) :
    StepSpec ⟨before, conditions, .call (.publish publisher draft)⟩ := by
  have hperform := perform_publish conditions publisher draft hmailbox
  have hafter : Step.after Event.act ⟨before, conditions, .call (.publish publisher draft)⟩ =
      ((publish publisher draft).perform conditions before).2 := rfl
  cases hsubmission : submission publisher draft conditions before with
  | error error =>
      rw [hperform, hsubmission] at hafter
      refine spec_of_kept hmailbox (by rw [hafter]) ?_ (readFrom_publish · _ _ _ _)
      simp [submitted?, hsubmission, Except.toOption]
  | ok publication =>
      have hsubmitted : submitted? ⟨before, conditions, .call (.publish publisher draft)⟩ =
          some publication := by
        simp [submitted?, hsubmission, Except.toOption]
      obtain ⟨rfl, rfl, -⟩ := submits_of_submission hsubmission
      have hlive := live_enqueued hsubmitted
      rw [hperform, hsubmission] at hafter
      cases hfault : conditions.fault .insertMessage with
      | some error =>
          simp only [hfault] at hafter
          refine ⟨by rw [hafter]; exact hmailbox, by rw [hafter]; rfl, ?_, ?_⟩
          · intro topicId
            rw [readFrom_publish, hafter, List.nil_append]
            exact (hlive topicId) ▸ List.Sublist.refl _
          · simp [logged?, hfault, hafter, enqueued, Engine.mapQueues]
      | none =>
          simp only [hfault] at hafter
          refine ⟨by rw [hafter]; exact hmailbox, by rw [hafter]; rfl, ?_, ?_⟩
          · intro topicId
            rw [readFrom_publish, hafter, List.nil_append]
            exact (hlive topicId) ▸ List.Sublist.refl _
          · simp only [logged?, hfault, hsubmitted, hafter]
            rfl

/-- A call reads what the queue of its topic gives. -/
theorem readFrom_readMessage {before : Broker} {conditions : Conditions} {subscriber : ClientId}
    {topicName other : String} (htopic : before.store.topicId? topicName = some other)
    (hreply : ((readMessage subscriber topicName).perform conditions before).1 =
      .ok (before.engine.queues.retrieve other conditions.now).1) (topicId : String) :
    readFrom topicId ⟨before, conditions, .call (.readMessage subscriber topicName)⟩ =
      if topicId = other then ((before.engine.queues.topic other).take conditions.now).1.toList
      else [] := by
  have hstep : Step.reply Event.act
      ⟨before, conditions, .call (.readMessage subscriber topicName)⟩ =
      ⟨.call (.readMessage subscriber topicName),
        ((readMessage subscriber topicName).perform conditions before).1⟩ := rfl
  rw [hreply, Queues.retrieve_fst] at hstep
  simp only [readFrom, hstep]
  by_cases h : topicId = other
  · subst h
    cases ((before.engine.queues.topic topicId).take conditions.now).1 <;> simp [htopic]
  · have hne : other ≠ topicId := fun e => h e.symm
    cases ((before.engine.queues.topic other).take conditions.now).1 <;> simp [htopic, h, hne]

theorem spec_readMessage {before : Broker} (hmailbox : before.engine.mailbox = [])
    (conditions : Conditions) (subscriber : ClientId) (topicName : String) :
    StepSpec ⟨before, conditions, .call (.readMessage subscriber topicName)⟩ := by
  have hafter : Step.after Event.act
      ⟨before, conditions, .call (.readMessage subscriber topicName)⟩ =
      ((readMessage subscriber topicName).perform conditions before).2 := rfl
  rcases perform_readMessage conditions subscriber topicName hmailbox with
    ⟨other, htopic, hperform⟩ | ⟨error, hperform⟩
  · have hread := readFrom_readMessage htopic (congrArg Prod.fst hperform)
    have hlog : logged? ⟨before, conditions, .call (.readMessage subscriber topicName)⟩ = none :=
      logged?_of_none rfl
    rw [hperform] at hafter
    refine ⟨by rw [hafter]; exact hmailbox, by rw [hafter]; rfl, ?_, by rw [hafter, hlog]; rfl⟩
    intro topicId
    have hqueued : queued topicId ⟨before, conditions, .call (.readMessage subscriber topicName)⟩ =
        [] := rfl
    have hqueue := Queues.topic_retrieve other topicId conditions.now before.engine.queues
    rw [hread, hqueued, hafter, List.append_nil]
    simp only [Broker.queue, Engine.mapQueues, hqueue]
    by_cases h : topicId = other
    · subst h
      have hsplit := (before.engine.queues.topic topicId).live_eq_take conditions.now
      simp only [if_true]
      conv => rhs; rw [hsplit]
      rw [List.append_assoc]
      exact List.sublist_append_right _ _
    · rw [if_neg h, if_neg h]
      exact List.Sublist.refl _
  · rw [hperform] at hafter
    refine spec_of_kept hmailbox (by rw [hafter]) rfl ?_
    intro topicId
    have hreply : Step.reply Event.act
        ⟨before, conditions, .call (.readMessage subscriber topicName)⟩ =
        ⟨.call (.readMessage subscriber topicName),
          ((readMessage subscriber topicName).perform conditions before).1⟩ := rfl
    rw [hperform] at hreply
    simp only [readFrom, hreply]

theorem spec_kill {before : Broker} (conditions : Conditions) :
    StepSpec ⟨before, conditions, .kill⟩ := by
  refine ⟨rfl, rfl, ?_, by rw [logged?_of_none rfl]; rfl⟩
  intro topicId
  exact List.nil_sublist _

theorem step_spec {step : Step Event} (hmailbox : step.before.engine.mailbox = []) :
    StepSpec step := by
  obtain ⟨before, conditions, event⟩ := step
  cases event with
  | kill => exact spec_kill conditions
  | call call =>
      cases call with
      | listTopics =>
          exact spec_of_kept hmailbox (Action.keeps_look _ _ conditions before) rfl fun _ => rfl
      | registerPublisher publisher topicName =>
          have hkept := keeps_registerPublisher publisher topicName conditions before
          exact spec_of_kept hmailbox hkept rfl fun _ => rfl
      | deregisterPublisher publisher =>
          have hkept := keeps_deregisterPublisher publisher conditions before
          exact spec_of_kept hmailbox hkept rfl fun _ => rfl
      | publish publisher draft => exact spec_publish hmailbox conditions publisher draft
      | registerSubscriber subscriber topicName =>
          have hkept := keeps_registerSubscriber subscriber topicName conditions before
          exact spec_of_kept hmailbox hkept rfl fun _ => rfl
      | deregisterSubscriber subscriber topicName =>
          have hkept := keeps_deregisterSubscriber subscriber topicName conditions before
          exact spec_of_kept hmailbox hkept rfl fun _ => rfl
      | listSubscriptions subscriber =>
          exact spec_of_kept hmailbox (Action.keeps_look _ _ conditions before) rfl fun _ => rfl
      | readMessage subscriber topicName =>
          exact spec_readMessage hmailbox conditions subscriber topicName

/-! ## Publications -/

/-- The step is a call that puts a publication in line. -/
structure Publishes (step : Step Event) (publication : Publication) : Prop where
  event : step.event = .call (.publish publication.publisher publication.draft)
  submits : Submits step.conditions step.before publication
  queued : ((step.after Event.act).queue publication.topicId).live =
    (step.before.queue publication.topicId).live ++ [publication.message]

theorem submission_of_submitted? {step : Step Event} {publication : Publication}
    (h : submitted? step = some publication) :
    ∃ publisher draft, step.event = .call (.publish publisher draft) ∧
      submission publisher draft step.conditions step.before = .ok publication := by
  unfold submitted? at h
  split at h
  · next publisher draft hevent =>
      refine ⟨publisher, draft, hevent, ?_⟩
      cases hresult : submission publisher draft step.conditions step.before with
      | error error =>
          rw [hresult] at h
          cases h
      | ok other =>
          rw [hresult] at h
          cases h
          rfl
  · cases h

theorem publishes_of_submitted? {step : Step Event} {publication : Publication}
    (hmailbox : step.before.engine.mailbox = []) (h : submitted? step = some publication) :
    Publishes step publication := by
  obtain ⟨publisher, draft, hevent, hsubmission⟩ := submission_of_submitted? h
  obtain ⟨rfl, rfl, hsubmits⟩ := submits_of_submission hsubmission
  obtain ⟨before, conditions, event⟩ := step
  obtain rfl : event = _ := hevent
  have hlive := live_enqueued h publication.topicId
  have hperform := perform_publish conditions publication.publisher publication.draft hmailbox
  simp only [hsubmission] at hperform
  have hafter : (Step.after Event.act ⟨before, conditions,
      .call (.publish publication.publisher publication.draft)⟩).engine =
      (enqueued publication before).engine := by
    change ((publish publication.publisher publication.draft).perform conditions
      before).2.engine = _
    rw [hperform]
    cases conditions.fault .insertMessage <;> rfl
  refine ⟨rfl, hsubmits, ?_⟩
  have hqueued : queued publication.topicId ⟨before, conditions,
      .call (.publish publication.publisher publication.draft)⟩ = [publication.message] := by
    simp [queued, h]
  rw [hqueued] at hlive
  rw [Broker.queue, hafter]
  exact hlive

theorem Publishes.isPublish {step : Step Event} {publication : Publication}
    (h : Publishes step publication) : step.event.IsPublish := by
  rw [h.event]
  trivial

theorem Publishes.id_eq {step : Step Event} {publication : Publication}
    (h : Publishes step publication) : publication.message.id = step.conditions.fresh 0 :=
  h.submits.stamped.id

/-- A call puts at most one publication in line. -/
theorem Publishes.unique {step : Step Event} {publication other : Publication}
    (h : Publishes step publication) (hother : Publishes step other) :
    publication.topicId = other.topicId := by
  have hpublisher : publication.publisher = other.publisher :=
    (ServiceCall.publish.inj (Event.call.inj (h.event.symm.trans hother.event))).1
  have hbound := h.submits.bound
  rw [hpublisher, hother.submits.bound] at hbound
  exact (PublisherRecord.bound.inj hbound).symm

theorem submitted?_of_mem_queued {topicId : String} {step : Step Event} {message : Message}
    (h : message ∈ queued topicId step) :
    ∃ publication, submitted? step = some publication ∧ publication.topicId = topicId ∧
      publication.message = message := by
  unfold queued at h
  split at h
  · next publication hsubmitted =>
      split at h
      · next htopic => exact ⟨publication, hsubmitted, htopic, (List.mem_singleton.mp h).symm⟩
      · cases h
  · cases h

/-! ## Runs -/

/-- No two publishing calls among the steps meet the same id. -/
def FreshSteps (steps : List (Step Event)) : Prop :=
  steps.Pairwise fun step later =>
    step.event.IsPublish → later.event.IsPublish →
      step.conditions.fresh 0 ≠ later.conditions.fresh 0

theorem Fresh.steps {schedule : Schedule Event} (h : Fresh schedule) (broker : Broker) :
    FreshSteps (schedule.steps Event.act broker) := by
  unfold Fresh at h
  rw [← Schedule.map_entry_steps Event.act schedule broker] at h
  exact List.pairwise_map.mp h

/-- What the steps of a run from a store with an empty log left behind. -/
structure History (store : Store) (steps : List (Step Event)) (broker : Broker) : Prop where
  mailbox : broker.engine.mailbox = []
  idle : ∀ step ∈ steps, step.before.engine.mailbox = []
  topics : broker.store.topics = store.topics
  named : ∀ step ∈ steps, step.before.store.topics = store.topics
  inLine : ∀ topicId, (steps.flatMap (readFrom topicId) ++ (broker.queue topicId).live).Sublist
    (steps.flatMap (queued topicId))
  rows : ∀ id text, broker.store.log.find? id = some text → ∃ step ∈ steps, ∃ publication,
    submitted? step = some publication ∧ id = publication.message.id ∧
      text = Record.toLine publication.row
  lines : FreshSteps steps → ∀ step ∈ steps, ∀ publication, logged? step = some publication →
    broker.store.log.find? publication.message.id = some (Record.toLine publication.row)

theorem submitted?_of_logged? {step : Step Event} {publication : Publication}
    (h : logged? step = some publication) : submitted? step = some publication := by
  unfold logged? at h
  split at h
  · cases h
  · exact h

/-- A row of the log was there before a step, or is that of what the step put in line. -/
theorem History.rows_snoc {store : Store} {steps : List (Step Event)} {step : Step Event}
    (h : History store steps step.before) {id text : String}
    (hrow : (step.after Event.act).store.log.find? id = some text) :
    ∃ other ∈ steps ++ [step], ∃ publication, submitted? other = some publication ∧
      id = publication.message.id ∧ text = Record.toLine publication.row := by
  rw [(step_spec h.mailbox).log] at hrow
  cases hlogged : logged? step with
  | none =>
      rw [hlogged] at hrow
      obtain ⟨other, hother, hpublication⟩ := h.rows id text hrow
      exact ⟨other, List.mem_append_left _ hother, hpublication⟩
  | some publication =>
      simp only [hlogged, Table.find?_insert] at hrow
      by_cases hid : id = publication.message.id
      · rw [if_pos hid] at hrow
        exact ⟨step, by simp, publication, submitted?_of_logged? hlogged, hid,
          (Option.some.inj hrow).symm⟩
      · rw [if_neg hid] at hrow
        obtain ⟨other, hother, hpublication⟩ := h.rows id text hrow
        exact ⟨other, List.mem_append_left _ hother, hpublication⟩

/-- A step leaves the rows as they are that earlier steps logged, since its id is another one. -/
theorem History.lines_snoc {store : Store} {steps : List (Step Event)} {step : Step Event}
    (h : History store steps step.before) (hfresh : FreshSteps (steps ++ [step]))
    {other : Step Event} (hother : other ∈ steps ++ [step]) {publication : Publication}
    (hlogged : logged? other = some publication) :
    (step.after Event.act).store.log.find? publication.message.id =
      some (Record.toLine publication.row) := by
  obtain ⟨hearlier, -, hlast⟩ := List.pairwise_append.mp hfresh
  rw [(step_spec h.mailbox).log]
  rcases List.mem_append.mp hother with hother | hother
  · have hrow := h.lines hearlier other hother publication hlogged
    cases hnext : logged? step with
    | none => exact hrow
    | some last =>
        have hearly := publishes_of_submitted? (h.idle other hother) (submitted?_of_logged? hlogged)
        have hlate := publishes_of_submitted? h.mailbox (submitted?_of_logged? hnext)
        have hne : publication.message.id ≠ last.message.id := by
          rw [hearly.id_eq, hlate.id_eq]
          exact hlast other hother step (by simp) hearly.isPublish hlate.isPublish
        simpa [Table.find?_insert, hne] using hrow
  · obtain rfl := List.mem_singleton.mp hother
    simp [hlogged, Table.find?_insert]

theorem History.snoc {store : Store} {steps : List (Step Event)} {step : Step Event}
    (h : History store steps step.before) :
    History store (steps ++ [step]) (step.after Event.act) := by
  have hstep := step_spec h.mailbox
  refine ⟨hstep.mailbox, ?_, hstep.topics.trans h.topics, ?_, ?_, ?_, ?_⟩
  · exact List.forall_mem_append.mpr ⟨h.idle, List.forall_mem_singleton.mpr h.mailbox⟩
  · exact List.forall_mem_append.mpr ⟨h.named, List.forall_mem_singleton.mpr h.topics⟩
  · intro topicId
    simp only [List.flatMap_append, List.flatMap_singleton, List.append_assoc]
    refine ((hstep.inLine topicId).append_left _).trans ?_
    rw [← List.append_assoc]
    exact (h.inLine topicId).append_right _
  · intro id text hrow
    exact h.rows_snoc hrow
  · intro hfresh other hother publication hlogged
    exact h.lines_snoc hfresh hother hlogged

theorem history_final (store : Store) (hlog : store.log = .empty) (defaultTtl : Nat)
    (schedule : Schedule Event) :
    History store (schedule.steps Event.act (.started store defaultTtl))
      (schedule.final Event.act (.started store defaultTtl)) := by
  refine Schedule.run_induction Event.act (motive := History store) ?_ ?_ schedule
  · constructor <;> simp [Broker.started, Broker.queue, Engine.fresh, TopicQueue.empty, hlog]
  · intro steps step h
    exact h.snoc

/-! ## Messages that were read, and rows of the log -/

/-- The step answers a message of a topic to a subscriber. -/
def Reads (step : Step Event) (topicName : String) (message : Message) : Prop :=
  ∃ subscriber,
    step.reply Event.act = ⟨.call (.readMessage subscriber topicName), .ok (some message)⟩

theorem FreshSteps.eq_of_id_eq {steps : List (Step Event)} (h : FreshSteps steps)
    {step other : Step Event} (hstep : step ∈ steps) (hother : other ∈ steps)
    {publication last : Publication} (hpublishes : Publishes step publication)
    (hlast : Publishes other last) (hid : publication.message.id = last.message.id) :
    step = other := by
  have hall := List.Pairwise.forall_of_forall_of_flip
    (R := fun s t => s.event.IsPublish → t.event.IsPublish →
      s.conditions.fresh 0 = t.conditions.fresh 0 → s = t) (l := steps)
    (fun _ _ _ _ _ => rfl) (h.imp fun hne hs ht heq => absurd heq (hne hs ht))
    (h.imp fun hne hs ht heq => absurd heq.symm (hne ht hs))
  refine hall hstep hother hpublishes.isPublish hlast.isPublish ?_
  rw [← hpublishes.id_eq, ← hlast.id_eq, hid]

theorem readFrom_of_reads {step : Step Event} {topicName : String} {message : Message}
    (h : Reads step topicName message) {topicId : String}
    (htopic : step.before.store.topicId? topicName = some topicId) :
    readFrom topicId step = [message] := by
  obtain ⟨subscriber, hreply⟩ := h
  simp [readFrom, hreply, htopic]

theorem event_of_reads {step : Step Event} {topicName : String} {message : Message}
    (h : Reads step topicName message) :
    ∃ subscriber, step.event = .call (.readMessage subscriber topicName) := by
  obtain ⟨subscriber, hreply⟩ := h
  exact ⟨subscriber, congrArg Sigma.fst hreply⟩

/-- A topic that a message is read from has an id. -/
theorem topicId?_of_reads {step : Step Event} (hmailbox : step.before.engine.mailbox = [])
    {topicName : String} {message : Message} (h : Reads step topicName message) :
    ∃ topicId, step.before.store.topicId? topicName = some topicId := by
  obtain ⟨subscriber, hreply⟩ := h
  obtain ⟨before, conditions, event⟩ := step
  obtain rfl : event = _ := congrArg Sigma.fst hreply
  have hanswer : ((readMessage subscriber topicName).perform conditions before).1 =
      .ok (some message) := eq_of_heq (Sigma.mk.inj hreply).2
  rcases perform_readMessage conditions subscriber topicName hmailbox with
    ⟨topicId, htopic, -⟩ | ⟨error, hperform⟩
  · exact ⟨topicId, htopic⟩
  · rw [hperform] at hanswer
    cases hanswer

/-- The queue of a topic takes one message for each publication on it, with an id of its own. -/
theorem pairwise_queued {store : Store} {steps : List (Step Event)} {broker : Broker}
    (h : History store steps broker) (hfresh : FreshSteps steps) (topicId : String) :
    (steps.flatMap (queued topicId)).Pairwise fun message later => message.id ≠ later.id := by
  have hpublishes : ∀ step ∈ steps, ∀ message ∈ queued topicId step,
      step.event.IsPublish ∧ message.id = step.conditions.fresh 0 := by
    intro step hstep message hmessage
    obtain ⟨publication, hsubmitted, -, rfl⟩ := submitted?_of_mem_queued hmessage
    have hpublishes := publishes_of_submitted? (h.idle step hstep) hsubmitted
    exact ⟨hpublishes.isPublish, hpublishes.id_eq⟩
  refine List.pairwise_flatMap.mpr ⟨?_, ?_⟩
  · intro step hstep
    unfold queued
    split
    · split
      · exact List.pairwise_singleton _ _
      · exact .nil
    · exact .nil
  · refine hfresh.imp_of_mem ?_
    intro step later hstep hlater hne message hmessage other hother
    obtain ⟨hstepPublish, hid⟩ := hpublishes step hstep message hmessage
    obtain ⟨hlaterPublish, hother⟩ := hpublishes later hlater other hother
    rw [hid, hother]
    exact hne hstepPublish hlaterPublish

/-- What was read from a topic was put in line for it. -/
theorem exists_publication_of_reads {store : Store} {steps : List (Step Event)} {broker : Broker}
    (h : History store steps broker) {read : Step Event} (hread : read ∈ steps) {topicName : String}
    {message : Message} (hreads : Reads read topicName message) :
    ∃ publish ∈ steps, ∃ publication, Publishes publish publication ∧
      publication.message = message ∧ store.topicId? topicName = some publication.topicId ∧
      message ∈ readFrom publication.topicId read := by
  obtain ⟨topicId, htopic⟩ := topicId?_of_reads (h.idle read hread) hreads
  have hfrom := readFrom_of_reads hreads htopic
  have hmem : message ∈ steps.flatMap (queued topicId) := by
    refine (h.inLine topicId).subset (List.mem_append_left _ ?_)
    exact List.mem_flatMap.mpr ⟨read, hread, by rw [hfrom]; exact List.mem_singleton_self _⟩
  obtain ⟨publish, hpublish, hqueued⟩ := List.mem_flatMap.mp hmem
  obtain ⟨publication, hsubmitted, rfl, hmessage⟩ := submitted?_of_mem_queued hqueued
  refine ⟨publish, hpublish, publication,
    publishes_of_submitted? (h.idle publish hpublish) hsubmitted, hmessage, ?_, ?_⟩
  · rw [← htopic, Store.topicId?, Store.topicId?, h.named read hread]
  · rw [hfrom]
    exact List.mem_singleton_self _

/-- No message is read twice. -/
theorem pairwise_reads {store : Store} {steps : List (Step Event)} {broker : Broker}
    (h : History store steps broker) (hfresh : FreshSteps steps) :
    steps.Pairwise fun read later => ∀ topicName message, Reads read topicName message →
      ∀ topicName' message', Reads later topicName' message' → message.id ≠ message'.id := by
  refine List.pairwise_iff_forall_sublist.mpr ?_
  intro read later hsublist topicName message hreads topicName' message' hreads' hid
  have hread : read ∈ steps := hsublist.subset (by simp)
  have hlater : later ∈ steps := hsublist.subset (by simp)
  obtain ⟨publish, hpublish, publication, hpublishes, rfl, -, hfrom⟩ :=
    exists_publication_of_reads h hread hreads
  obtain ⟨publish', hpublish', publication', hpublishes', rfl, -, hfrom'⟩ :=
    exists_publication_of_reads h hlater hreads'
  obtain rfl := hfresh.eq_of_id_eq hpublish hpublish' hpublishes hpublishes' hid
  rw [← hpublishes.unique hpublishes'] at hfrom'
  have hnodup := (pairwise_queued h hfresh publication.topicId).sublist
    ((List.sublist_append_left _ _).trans (h.inLine publication.topicId))
  have hpair := List.pairwise_iff_forall_sublist.mp (List.pairwise_flatMap.mp hnodup).2 hsublist
  exact hpair _ hfrom _ hfrom' hid

/-! ## Answers of publishing calls -/

/-- A call that tells an id has put a publication of that id in line and logged it. -/
theorem logged?_of_reply {step : Step Event} (hmailbox : step.before.engine.mailbox = [])
    {publisher : ClientId} {draft : Draft} {id : String}
    (h : step.reply Event.act = ⟨.call (.publish publisher draft), .ok id⟩) :
    ∃ publication, logged? step = some publication ∧ publication.publisher = publisher ∧
      publication.draft = draft ∧ publication.message.id = id := by
  obtain ⟨before, conditions, event⟩ := step
  obtain rfl : event = _ := congrArg Sigma.fst h
  have hanswer : ((publish publisher draft).perform conditions before).1 = .ok id :=
    eq_of_heq (Sigma.mk.inj h).2
  rw [perform_publish conditions publisher draft hmailbox] at hanswer
  cases hsubmission : submission publisher draft conditions before with
  | error error =>
      rw [hsubmission] at hanswer
      cases hanswer
  | ok publication =>
      simp only [hsubmission] at hanswer
      cases hfault : conditions.fault .insertMessage with
      | some error =>
          rw [hfault] at hanswer
          cases hanswer
      | none =>
          rw [hfault] at hanswer
          obtain ⟨hpublisher, hdraft, -⟩ := submits_of_submission hsubmission
          refine ⟨publication, ?_, hpublisher, hdraft, Except.ok.inj hanswer⟩
          simp [logged?, hfault, submitted?, hsubmission, Except.toOption]

/-- A call that fails logs nothing, and changes nothing at all unless it fails at the log. -/
theorem after_of_failed {step : Step Event} (hmailbox : step.before.engine.mailbox = [])
    {publisher : ClientId} {draft : Draft} {error : BrokerError}
    (h : step.reply Event.act = ⟨.call (.publish publisher draft), .error error⟩) :
    (step.after Event.act).store = step.before.store ∧
      (step.after Event.act = step.before ∨
        step.conditions.fault .insertMessage = some error ∧
          ∃ publication, Publishes step publication) := by
  obtain ⟨before, conditions, event⟩ := step
  obtain rfl : event = _ := congrArg Sigma.fst h
  have hanswer : ((publish publisher draft).perform conditions before).1 = .error error :=
    eq_of_heq (Sigma.mk.inj h).2
  have hafter : Step.after Event.act ⟨before, conditions, .call (.publish publisher draft)⟩ =
      ((publish publisher draft).perform conditions before).2 := rfl
  rw [perform_publish conditions publisher draft hmailbox] at hanswer hafter
  cases hsubmission : submission publisher draft conditions before with
  | error other =>
      rw [hsubmission] at hafter
      rw [hafter]
      exact ⟨rfl, .inl rfl⟩
  | ok publication =>
      have hsubmitted : submitted? ⟨before, conditions, .call (.publish publisher draft)⟩ =
          some publication := by
        simp [submitted?, hsubmission, Except.toOption]
      simp only [hsubmission] at hanswer hafter
      cases hfault : conditions.fault .insertMessage with
      | none =>
          rw [hfault] at hanswer
          cases hanswer
      | some other =>
          rw [hfault] at hanswer hafter
          obtain rfl := Except.error.inj hanswer
          rw [hafter]
          exact ⟨rfl, .inr ⟨rfl, publication, publishes_of_submitted? hmailbox hsubmitted⟩⟩

/-! ## Faithful runs -/

/-- What holds of the messages that are published and read in the steps of a run. -/
structure Faithful (steps : List (Step Event)) : Prop where
  /-- A message that is read comes from exactly one call before, which put it in line for the topic
  that it is read from. -/
  origin : ∀ earlier read later, steps = earlier ++ read :: later →
    ∀ topicName message, Reads read topicName message →
      ∃ front publish back publication, earlier = front ++ publish :: back ∧
        Publishes publish publication ∧ publication.message = message ∧
        publish.before.store.topicId? topicName = some publication.topicId ∧
        ∀ other ∈ front ++ back, ∀ last, Publishes other last → last.message.id ≠ message.id
  once : steps.Pairwise fun read later => ∀ topicName message, Reads read topicName message →
    ∀ topicName' message', Reads later topicName' message' → message.id ≠ message'.id
  /-- What a publisher was told the id of is in the log from then on. -/
  logged : ∀ earlier publish later, steps = earlier ++ publish :: later →
    ∀ publisher draft id, publish.reply Event.act = ⟨.call (.publish publisher draft), .ok id⟩ →
      ∃ publication, Publishes publish publication ∧ publication.publisher = publisher ∧
        publication.draft = draft ∧ publication.message.id = id ∧
        ∀ step ∈ publish :: later,
          (step.after Event.act).store.loggedMessage id = .ok (some publication.row)
  /-- The log only holds what was put in line. -/
  rows : ∀ earlier step later, steps = earlier ++ step :: later →
    ∀ id text, (step.after Event.act).store.log.find? id = some text →
      ∃ publish ∈ earlier ++ [step], ∃ publication, Publishes publish publication ∧
        id = publication.message.id ∧ text = Record.toLine publication.row
  failed : ∀ step ∈ steps, ∀ publisher draft error,
    step.reply Event.act = ⟨.call (.publish publisher draft), .error error⟩ →
      (step.after Event.act).store = step.before.store ∧
        (step.after Event.act = step.before ∨
          step.conditions.fault .insertMessage = some error ∧
            ∃ publication, Publishes step publication)

/-- The run up to a step, with what it left behind. -/
theorem history_of_split {store : Store} (hlog : store.log = .empty) (defaultTtl : Nat)
    {schedule : Schedule Event} (hfresh : Fresh schedule) {earlier later : List (Step Event)}
    {step : Step Event}
    (h : schedule.steps Event.act (.started store defaultTtl) = earlier ++ step :: later) :
    History store (earlier ++ [step]) (step.after Event.act) ∧ FreshSteps (earlier ++ [step]) := by
  obtain ⟨front, back, rfl, hsteps, hfinal⟩ := Schedule.exists_front_of_steps_eq Event.act h
  have hfront : Fresh front := (List.pairwise_append.mp hfresh).1
  rw [← hsteps, ← hfinal]
  exact ⟨history_final store hlog defaultTtl front, hfront.steps _⟩

theorem loggedMessage_of_line {store : Store} {id : String} {row : Store.LoggedMessage}
    (h : store.log.find? id = some (Record.toLine row)) :
    store.loggedMessage id = .ok (some row) := by
  simp only [Store.loggedMessage, h, Record.ofLine_toLine Store.LoggedMessage.exact]
  rfl

/-- What was read comes from exactly one of the calls before. -/
theorem origin_of_reads {store : Store} {earlier : List (Step Event)} {read : Step Event}
    {broker : Broker} (h : History store (earlier ++ [read]) broker)
    (hfresh : FreshSteps (earlier ++ [read])) {topicName : String} {message : Message}
    (hreads : Reads read topicName message) :
    ∃ front publish back publication, earlier = front ++ publish :: back ∧
      Publishes publish publication ∧ publication.message = message ∧
      publish.before.store.topicId? topicName = some publication.topicId ∧
      ∀ other ∈ front ++ back, ∀ last, Publishes other last → last.message.id ≠ message.id := by
  obtain ⟨publish, hmem, publication, hpublishes, rfl, htopic, -⟩ :=
    exists_publication_of_reads h (by simp) hreads
  have hnamed := h.named publish hmem
  have hearlier : publish ∈ earlier := by
    rcases List.mem_append.mp hmem with hmem | hmem
    · exact hmem
    · obtain rfl := List.mem_singleton.mp hmem
      obtain ⟨subscriber, hevent⟩ := event_of_reads hreads
      exact absurd (hpublishes.event.symm.trans hevent) nofun
  obtain ⟨front, back, rfl⟩ := List.append_of_mem hearlier
  refine ⟨front, publish, back, publication, rfl, hpublishes, rfl, ?_, ?_⟩
  · rw [← htopic, Store.topicId?, Store.topicId?, hnamed]
  · intro other hother last hlast
    rw [hlast.id_eq, hpublishes.id_eq]
    have hpair := (List.pairwise_append.mp hfresh).1
    obtain ⟨-, hback, hfront⟩ := List.pairwise_append.mp hpair
    rcases List.mem_append.mp hother with hother | hother
    · exact hfront other hother publish List.mem_cons_self hlast.isPublish hpublishes.isPublish
    · exact ((List.pairwise_cons.mp hback).1 other hother hpublishes.isPublish hlast.isPublish).symm

/-- Every message that is read was published, on the topic that it is read from and as its publisher
handed it in, and is read once; whatever storage operations fail, and whenever the engine ends. -/
theorem faithful_steps (store : Store) (hlog : store.log = .empty) (defaultTtl : Nat)
    (schedule : Schedule Event) (hfresh : Fresh schedule) :
    Faithful (schedule.steps Event.act (.started store defaultTtl)) := by
  have hhistory := history_final store hlog defaultTtl schedule
  have hsteps := hfresh.steps (.started store defaultTtl)
  refine ⟨?_, pairwise_reads hhistory hsteps, ?_, ?_, ?_⟩
  · intro earlier read later hsplit topicName message hreads
    obtain ⟨hbefore, hbeforeFresh⟩ := history_of_split hlog defaultTtl hfresh hsplit
    exact origin_of_reads hbefore hbeforeFresh hreads
  · intro earlier publish later hsplit publisher draft id hreply
    have hidle := hhistory.idle publish (by rw [hsplit]; simp)
    obtain ⟨publication, hlogged, hpublisher, hdraft, rfl⟩ := logged?_of_reply hidle hreply
    refine ⟨publication, publishes_of_submitted? hidle (submitted?_of_logged? hlogged), hpublisher,
      hdraft, rfl, ?_⟩
    intro step hstep
    obtain ⟨between, rest, hsplit'⟩ := List.append_of_mem hstep
    rw [hsplit', ← List.append_assoc] at hsplit
    obtain ⟨hbefore, hbeforeFresh⟩ := history_of_split hlog defaultTtl hfresh hsplit
    refine loggedMessage_of_line (hbefore.lines hbeforeFresh publish ?_ publication hlogged)
    cases between with
    | nil => simp [(List.cons.inj hsplit').1]
    | cons first between => simp [(List.cons.inj hsplit').1]
  · intro earlier step later hsplit id text hrow
    obtain ⟨hbefore, -⟩ := history_of_split hlog defaultTtl hfresh hsplit
    obtain ⟨publish, hpublish, publication, hsubmitted, hid, htext⟩ := hbefore.rows id text hrow
    exact ⟨publish, hpublish, publication,
      publishes_of_submitted? (hbefore.idle publish hpublish) hsubmitted, hid, htext⟩
  · intro step hstep publisher draft error hreply
    exact after_of_failed (hhistory.idle step hstep) hreply

/-- A publisher publishes twice, a subscriber reads, and the engine ends. -/
def shortDay : Schedule Event :=
  [(.calm "a", .call (.registerPublisher ⟨1, by decide⟩ "news")),
    (.calm "b", .call (.publish ⟨1, by decide⟩ ⟨"first", none, none⟩)),
    (.calm "c", .call (.publish ⟨1, by decide⟩ ⟨"second", none, none⟩)),
    (.calm "d", .call (.readMessage ⟨2, by decide⟩ "news")), (.calm "e", .kill)]

theorem faithful_steps_shortDay :
    Faithful (shortDay.steps Event.act (.started (Store.empty.insertTopic "news" "t").2 60)) := by
  refine faithful_steps _ rfl 60 shortDay ?_
  have hids : (Conditions.calm "b").fresh 0 ≠ (Conditions.calm "c").fresh 0 := by decide
  simpa [Fresh, shortDay, Event.IsPublish] using hids

end Registry

end TopicBroker
