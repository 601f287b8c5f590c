import Mathlib.Data.List.TakeWhile
import TopicBroker.Proofs.Engine.Reload

/-! # What a retrieve drains

A retrieve moves the expired messages at the front of its topic's live list to the dead list and
hands out the message behind them. One that hands out nothing leaves nothing live. From then on the
topic has nothing to hand out until a message comes in: by an enqueue, or by a load. -/

namespace TopicBroker

/-! ## Expired fronts -/

/-- The expiry has come, or cannot be read. -/
def Message.Expired (now : Instant) (message : Message) : Prop :=
  ∀ expiry, Timestamp.parse message.expiresAt = .ok expiry → expiry ≤ now

theorem Message.isExpiredAt_iff {now : Instant} {message : Message} :
    message.isExpiredAt now = true ↔ message.Expired now := by
  unfold isExpiredAt Expired
  cases Timestamp.parse message.expiresAt <;> simp

/-- The longest front of a list of messages that has expired. -/
structure ExpiredFront (now : Instant) (front messages : List Message) : Prop where
  isFront : front <+: messages
  expired : ∀ message ∈ front, message.Expired now
  longest : ∀ other, other <+: messages → (∀ message ∈ other, message.Expired now) →
    other <+: front

theorem expiredFront_takeWhile (now : Instant) (messages : List Message) :
    ExpiredFront now (messages.takeWhile (·.isExpiredAt now)) messages := by
  refine ⟨List.takeWhile_prefix _, ?_, ?_⟩
  · intro message hmessage
    exact Message.isExpiredAt_iff.mp (List.all_eq_true.mp List.all_takeWhile message hmessage)
  · intro other
    induction other generalizing messages with
    | nil => simp
    | cons message other ih =>
        rintro ⟨rest, rfl⟩ hexpired
        obtain ⟨hmessage, hother⟩ := List.forall_mem_cons.mp hexpired
        have hrest := ih (other ++ rest) (List.prefix_append other rest) hother
        simpa [Message.isExpiredAt_iff.mpr hmessage] using hrest

namespace Engine

/-! ## One retrieve -/

/-- What a retrieve on a topic does: it splits the live messages into an expired front, the message
that it answers, and the rest. -/
structure Drains (topicId : String) (now : Instant) (before after : Broker)
    (front : List Message) (answer : Option Message) : Prop where
  expired : ExpiredFront now front (before.queue topicId).live
  live : (before.queue topicId).live = front ++ answer.toList ++ (after.queue topicId).live
  dead : (after.queue topicId).dead = (before.queue topicId).dead ++ front
  answer_eq_none_iff : answer = none ↔ before.engine.queues.contains topicId = false ∨
    ∀ message ∈ (before.queue topicId).live, message.Expired now
  drained : answer = none → (after.queue topicId).live = []
  others : ∀ other, other ≠ topicId →
    after.engine.queues.find? other = before.engine.queues.find? other
  known : after.engine.queues.contains topicId = before.engine.queues.contains topicId
  outside : after = mapQueues (fun _ => after.engine.queues) before

end Engine

namespace TopicQueue

/-- Nothing is taken exactly if all live messages have expired. -/
theorem take_fst_eq_none_iff (now : Instant) (queue : TopicQueue) :
    (queue.take now).1 = none ↔ ∀ message ∈ queue.live, message.Expired now := by
  simp only [take_fst, List.head?_eq_none_iff, List.dropWhile_eq_nil_iff, Message.isExpiredAt_iff]

theorem live_take_of_fst_eq_none {now : Instant} {queue : TopicQueue}
    (h : (queue.take now).1 = none) : (queue.take now).2.live = [] := by
  rw [take, takeFrom_eq] at h ⊢
  rw [List.head?_eq_none_iff.mp h, List.tail_nil]

end TopicQueue

namespace Engine

theorem drains_retrieve (topicId : String) (conditions : Conditions) (broker : Broker) :
    ∃ front answer after,
      (handle (.retrieve topicId)).perform conditions broker = (.ok answer, after) ∧
      Drains topicId conditions.now broker after front answer := by
  let queue := broker.queue topicId
  let after := Step.after handle ⟨broker, conditions, .retrieve topicId⟩
  have hqueue : after.queue topicId = (queue.take conditions.now).2 := by
    simpa using queue_after_retrieve topicId topicId broker conditions
  have hfind (other : String) := Queues.find?_retrieve topicId other conditions.now
    broker.engine.queues
  have hafter : after.engine.queues =
      (broker.engine.queues.retrieve topicId conditions.now).2 := by
    simp [after, Step.after, perform_retrieve conditions broker, mapQueues]
  refine ⟨queue.expiredFront conditions.now, (queue.take conditions.now).1, after, ?_, ?_⟩
  · simp [after, Step.after, perform_retrieve conditions broker, Queues.retrieve_fst, queue, Broker.queue]
  · refine ⟨expiredFront_takeWhile _ _, ?_, ?_, ?_, ?_, ?_, ?_, ?_⟩
    · rw [hqueue]
      exact queue.live_eq_take conditions.now
    · rw [hqueue]
      exact queue.take_dead conditions.now
    · rw [TopicQueue.take_fst_eq_none_iff]
      constructor
      · exact .inr
      · rintro (hunknown | hexpired)
        · have hnone : queue = .empty := by
            simp only [Table.contains, Option.isSome_eq_false_iff, Option.isNone_iff_eq_none]
              at hunknown
            simp [queue, Broker.queue, Queues.topic, hunknown]
          simp [hnone, TopicQueue.empty]
        · exact hexpired
    · intro hnone
      rw [hqueue]
      exact TopicQueue.live_take_of_fst_eq_none hnone
    · intro other hother
      rw [hafter, hfind, if_neg hother]
    · rw [hafter, Table.contains, hfind, if_pos rfl, Option.isSome_map]
      rfl
    · rw [hafter]
      simp [after, Step.after, perform_retrieve conditions broker, mapQueues]

theorem reply_retrieve_eq_none_iff {topicId : String} {before : Broker} {conditions : Conditions} :
    Step.reply handle ⟨before, conditions, .retrieve topicId⟩ = ⟨.retrieve topicId, .ok none⟩ ↔
      ∀ message ∈ (before.queue topicId).live, message.Expired conditions.now := by
  rw [Step.reply, perform_retrieve, Queues.retrieve_fst, ← TopicQueue.take_fst_eq_none_iff]
  simp [Broker.queue]

/-! ## Runs -/

/-- A topic that had nothing to hand out has nothing to hand out until a message comes in, as far as
the steps in between tell. -/
def StaysDrained (topicId : String) (comesIn : Step Command → Prop) (steps : List (Step Command)) :
    Prop :=
  ∀ earlier first between second later, steps = earlier ++ first :: between ++ second :: later →
    first.reply handle = ⟨.retrieve topicId, .ok none⟩ → second.event = .retrieve topicId →
      (∀ step ∈ between, ¬ comesIn step) → second.reply handle = ⟨.retrieve topicId, .ok none⟩

/-- An enqueue on the topic is accepted. -/
def TakesIn (topicId : String) (step : Step Command) : Prop :=
  accepted topicId step ≠ []

/-- A load merges live messages of the topic. -/
def MergesLive (topicId : String) (step : Step Command) : Prop :=
  mergedLive topicId step ≠ []

/-- A step by which no message comes in leaves a topic without live messages as it is. -/
theorem live_after_of_nil {topicId : String} {step : Step Command}
    (hlive : (step.before.queue topicId).live = [])
    (hquiet : ¬ (TakesIn topicId step ∨ MergesLive topicId step)) :
    ((step.after handle).queue topicId).live = [] := by
  obtain ⟨haccepted, hmerged⟩ := not_or.mp hquiet
  have hstep := (step_spec topicId step).live
  rw [hlive, not_not.mp haccepted, not_not.mp hmerged] at hstep
  exact (List.append_eq_nil_iff.mp hstep.symm).2

theorem live_after_of_none {topicId : String} {step : Step Command}
    (h : step.reply handle = ⟨.retrieve topicId, .ok none⟩) :
    ((step.after handle).queue topicId).live = [] := by
  obtain ⟨before, conditions, event⟩ := step
  obtain rfl : event = _ := congrArg Sigma.fst h
  obtain ⟨front, answer, after, hperform, hdrains⟩ := drains_retrieve topicId conditions before
  rw [Step.reply, hperform] at h
  have hanswer : answer = none := by simpa using h
  rw [Step.after, hperform]
  exact hdrains.drained hanswer

theorem reply_of_live_eq_nil {topicId : String} {step : Step Command}
    (hevent : step.event = .retrieve topicId) (hlive : (step.before.queue topicId).live = []) :
    step.reply handle = ⟨.retrieve topicId, .ok none⟩ := by
  obtain ⟨before, conditions, event⟩ := step
  obtain rfl : event = _ := hevent
  have hlive : (before.queue topicId).live = [] := hlive
  rw [reply_retrieve_eq_none_iff, hlive]
  exact nofun

/-- A retrieve drains exactly the expired front of its topic, and a topic without a message to hand
out stays so, whatever the clock, until an enqueue on it is accepted or a load brings in live
messages of it. -/
theorem retrieve_drains (topicId : String) :
    (∀ conditions broker, ∃ front answer after,
      (handle (.retrieve topicId)).perform conditions broker = (.ok answer, after) ∧
      Drains topicId conditions.now broker after front answer) ∧
    ∀ (schedule : Schedule Command) (broker : Broker),
      StaysDrained topicId (fun step => TakesIn topicId step ∨ MergesLive topicId step)
        (schedule.steps handle broker) := by
  refine ⟨drains_retrieve topicId, ?_⟩
  intro schedule broker earlier first between second later hsteps hfirst hsecond hquiet
  obtain ⟨middle, hmiddle, hfinal⟩ := Schedule.exists_between_of_steps_eq handle hsteps
  refine reply_of_live_eq_nil hsecond ?_
  rw [← hfinal]
  refine Schedule.final_of_steps handle (P := fun broker => (broker.queue topicId).live = []) ?_
    (live_after_of_none hfirst)
  intro step hstep hlive
  rw [hmiddle] at hstep
  exact live_after_of_nil hlive (hquiet step hstep)

/-! ## A load after the queue was drained -/

/-- A topic is found without messages, and a load brings one in from the checkpoint. -/
def lateLoad : Schedule Command :=
  [(.calm "row", .retrieve "t"), (.calm "row", .load), (.calm "row", .retrieve "t")]

/-- The queue of the topic behind the load. -/
theorem exists_checkpoint_lateLoad :
    ∃ checkpoint, merged? (.calm "row") (.started Turn.oneSaved 60) = some checkpoint ∧
      checkpoint.liveOf "t" = [Turn.lasting] := by
  have hone : [(⟨"row0", "t", Turn.lasting⟩ : Store.QueuedMessage)].length ≤ 10 ^ 20 := by decide
  have hnone : ([] : List Store.QueuedMessage).length ≤ 10 ^ 20 := by decide
  obtain ⟨checkpoint, hcheckpoint, hsaved⟩ := Store.checkpoint_saveCheckpoint hone hnone .empty
  exact ⟨checkpoint, merged?_eq_some_iff.mpr ⟨rfl, rfl, hcheckpoint⟩, hsaved.live "t"⟩

/-- An enqueue is not the only way in: with the clock at a standstill and no enqueue at all, a topic
that had nothing to hand out has a message again after a load. -/
theorem not_staysDrained_lateLoad :
    (lateLoad.Pairwise fun entry later => entry.1.now ≤ later.1.now) ∧
    ¬ StaysDrained "t" (TakesIn "t") (lateLoad.steps handle (.started Turn.oneSaved 60)) := by
  refine ⟨by decide, ?_⟩
  intro hstays
  obtain ⟨checkpoint, hmerged, hlive⟩ := exists_checkpoint_lateLoad
  let start : Broker := .started Turn.oneSaved 60
  let load : Step Command := ⟨start, .calm "row", .load⟩
  have hsteps : lateLoad.steps handle start =
      [] ++ ⟨start, .calm "row", .retrieve "t"⟩ :: [load] ++
        ⟨load.after handle, .calm "row", .retrieve "t"⟩ :: [] := rfl
  have hquiet : ∀ step ∈ [load], ¬ TakesIn "t" step := by
    simp [TakesIn, accepted, Step.reply, load]
  have hexpired := reply_retrieve_eq_none_iff.mp (hstays _ _ _ _ _ hsteps rfl rfl hquiet)
  have hqueue : ((load.after handle).queue "t").live = [Turn.lasting] := by
    rw [queue_after_load hmerged, hlive]
    rfl
  -- the message lasts for a thousand years, so the second retrieve hands it out
  rw [hqueue, List.forall_mem_singleton, ← Message.isExpiredAt_iff] at hexpired
  exact absurd hexpired (by decide +kernel)

end Engine

end TopicBroker
