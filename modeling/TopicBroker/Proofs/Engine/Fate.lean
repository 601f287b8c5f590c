import TopicBroker.Proofs.Engine.Commands
import TopicBroker.Proofs.Queues
import TopicBroker.Proofs.Run

/-! # The fate of messages

A message that an enqueue accepts, or that a load brings in from a checkpoint, has exactly one fate:
a retrieve hands it out, a retrieve sets it aside because it has expired, or it is live still. The
sums over the steps of a run below say so for one topic, with every occurrence counted. -/

namespace TopicBroker

/-- A broker whose engine has just started on a store, and for which so many seconds are set that
messages live. -/
def Broker.started (store : Store) (defaultTtl : Nat) : Broker :=
  ⟨store, .fresh, .ofTtl defaultTtl⟩

/-- The queue of a topic. -/
def Broker.queue (broker : Broker) (topicId : String) : TopicQueue :=
  broker.engine.queues.topic topicId

namespace Engine

/-! ## What a step does to the messages of a topic -/

section

variable (topicId : String) (step : Step Command)

/-- The message of an enqueue that was accepted. -/
def accepted : List Message :=
  match step.reply handle with
  | ⟨.enqueue other message, .ok ()⟩ => if other = topicId then [message] else []
  | _ => []

/-- The message that a retrieve handed out. -/
def handedOut : List Message :=
  match step.reply handle with
  | ⟨.retrieve other, .ok (some message)⟩ => if other = topicId then [message] else []
  | _ => []

/-- The messages that a retrieve added to the dead list. -/
def moved : List Message :=
  match step.event with
  | .retrieve _ =>
    ((step.after handle).queue topicId).dead.drop (step.before.queue topicId).dead.length
  | _ => []

/-- The checkpoint that a load merged. -/
def merging? : Option Checkpoint :=
  match step.event with
  | .load => merged? step.conditions step.before
  | _ => none

/-- The live messages that a load merged. -/
def mergedLive : List Message := ((merging? step).map (·.liveOf topicId)).getD []

/-- The dead messages that a load merged. -/
def mergedDead : List Message := ((merging? step).map (·.deadOf topicId)).getD []

end

theorem event_of_merging? {step : Step Command} {checkpoint : Checkpoint}
    (h : merging? step = some checkpoint) : step.event = .load := by
  unfold merging? at h
  split at h
  · assumption
  · cases h

/-- Messages come in at the front by a load and at the back by an enqueue, and leave at the front by
a retrieve. -/
structure StepSpec (topicId : String) (step : Step Command) : Prop where
  live : mergedLive topicId step ++ (step.before.queue topicId).live ++ accepted topicId step =
    moved topicId step ++ handedOut topicId step ++ ((step.after handle).queue topicId).live
  dead : ((step.after handle).queue topicId).dead =
    mergedDead topicId step ++ (step.before.queue topicId).dead ++ moved topicId step
  unexpired : ∀ message ∈ handedOut topicId step,
    message.isExpiredAt step.conditions.now = false
  expired : ∀ message ∈ moved topicId step, message.isExpiredAt step.conditions.now = true
  loaded : (step.after handle).engine.loaded =
    (step.before.engine.loaded || (merging? step).isSome)
  first : (merging? step).isSome → step.before.engine.loaded = false

/-- A step that neither takes messages in nor lets them out leaves the queue as it was. -/
theorem spec_of_unchanged {topicId : String} {step : Step Command}
    (hqueue : (step.after handle).queue topicId = step.before.queue topicId)
    (hloaded : (step.after handle).engine.loaded = step.before.engine.loaded)
    (haccepted : accepted topicId step = []) (hhandedOut : handedOut topicId step = [])
    (hmoved : moved topicId step = []) (hmerging : merging? step = none) :
    StepSpec topicId step := by
  constructor <;>
    simp [mergedLive, mergedDead, haccepted, hhandedOut, hmoved, hmerging, hqueue, hloaded]

theorem spec_enqueue (topicId other : String) (message : Message) (before : Broker)
    (conditions : Conditions) :
    StepSpec topicId ⟨before, conditions, .enqueue other message⟩ := by
  by_cases h : Accepts other message
  · have hperform := perform_enqueue_of_accepts conditions before h
    have hqueue := Queues.topic_enqueue other topicId message before.engine.queues
    by_cases htopic : other = topicId
    · subst htopic
      constructor <;>
        simp [mergedLive, mergedDead, merging?, moved, handedOut, accepted, Step.reply, Step.after,
          hperform, mapQueues, Broker.queue, hqueue]
    · have hne : topicId ≠ other := fun e => htopic e.symm
      constructor <;>
        simp [mergedLive, mergedDead, merging?, moved, handedOut, accepted, Step.reply, Step.after,
          hperform, mapQueues, Broker.queue, hqueue, htopic, hne]
  · obtain ⟨detail, hperform⟩ := perform_enqueue_of_not_accepts h
    apply spec_of_unchanged <;>
      simp [accepted, handedOut, moved, merging?, Step.reply, Step.after, hperform]

theorem handedOut_retrieve (topicId other : String) (before : Broker) (conditions : Conditions) :
    handedOut topicId ⟨before, conditions, .retrieve other⟩ =
      if other = topicId then ((before.queue other).take conditions.now).1.toList else [] := by
  have htaken := Queues.retrieve_fst other conditions.now before.engine.queues
  simp only [handedOut, Step.reply, perform_retrieve conditions before other, htaken, Broker.queue]
  cases ((before.engine.queues.topic other).take conditions.now).1 <;> simp

theorem queue_after_retrieve (topicId other : String) (before : Broker) (conditions : Conditions) :
    (Step.after handle ⟨before, conditions, .retrieve other⟩).queue topicId =
      if topicId = other then ((before.queue other).take conditions.now).2
      else before.queue topicId := by
  simpa [Step.after, perform_retrieve conditions before other, mapQueues, Broker.queue] using
    Queues.topic_retrieve other topicId conditions.now before.engine.queues

theorem spec_retrieve (topicId other : String) (before : Broker) (conditions : Conditions) :
    StepSpec topicId ⟨before, conditions, .retrieve other⟩ := by
  have hhandedOut := handedOut_retrieve topicId other before conditions
  have hafter := queue_after_retrieve topicId other before conditions
  have hloaded : (Step.after handle ⟨before, conditions, .retrieve other⟩).engine.loaded =
      before.engine.loaded := by
    simp [Step.after, perform_retrieve conditions before other, mapQueues]
  by_cases htopic : other = topicId
  · subst htopic
    simp only [if_true] at hhandedOut hafter
    have hmoved : moved other ⟨before, conditions, .retrieve other⟩ =
        (before.queue other).expiredFront conditions.now := by
      simp [moved, hafter]
    refine ⟨?_, ?_, ?_, ?_, by simpa [merging?] using hloaded, by simp [merging?]⟩
    · rw [hmoved, hhandedOut, hafter]
      simpa [mergedLive, merging?, accepted, Step.reply] using
        (before.queue other).live_eq_take conditions.now
    · simp [mergedDead, merging?, hmoved, hafter]
    · intro message hmessage
      rw [hhandedOut, Option.mem_toList] at hmessage
      exact TopicQueue.not_isExpiredAt_of_take hmessage
    · intro message hmessage
      rw [hmoved] at hmessage
      exact TopicQueue.isExpiredAt_of_mem_expiredFront hmessage
  · have hne : topicId ≠ other := fun e => htopic e.symm
    simp only [htopic, hne, if_false] at hhandedOut hafter
    apply spec_of_unchanged hafter hloaded _ hhandedOut <;>
      simp [accepted, moved, merging?, Step.reply, hafter]

/-- Only a retrieve on a topic lets messages of the topic out. -/
theorem taken_of_not_retrieve {topicId : String} {step : Step Command}
    (h : step.event ≠ .retrieve topicId) :
    moved topicId step ++ handedOut topicId step = [] := by
  obtain ⟨before, conditions, command⟩ := step
  cases command with
  | retrieve other =>
      have hother : topicId ≠ other := fun e => h (congrArg Command.retrieve e.symm)
      have hafter := queue_after_retrieve topicId other before conditions
      simp only [hother, if_false] at hafter
      simp [moved, hafter, handedOut_retrieve, hother.symm]
  | _ => simp [moved, handedOut, Step.reply]

/-- A load that merges has merged whether the checkpoint can be dropped behind it or not. -/
theorem engine_after_load {before : Broker} {conditions : Conditions} {checkpoint : Checkpoint}
    (h : merged? conditions before = some checkpoint) :
    (Step.after handle ⟨before, conditions, .load⟩).engine =
      (mergeCheckpoint checkpoint before).engine := by
  simp only [Step.after, perform_load_of_some h]
  cases conditions.fault .dropCheckpoint <;> rfl

theorem queue_after_load {before : Broker} {conditions : Conditions} {checkpoint : Checkpoint}
    (h : merged? conditions before = some checkpoint) (topicId : String) :
    (Step.after handle ⟨before, conditions, .load⟩).queue topicId =
      ⟨checkpoint.liveOf topicId ++ (before.queue topicId).live,
        checkpoint.deadOf topicId ++ (before.queue topicId).dead⟩ := by
  simp [Broker.queue, engine_after_load h, mergeCheckpoint]

theorem spec_load (topicId : String) (before : Broker) (conditions : Conditions) :
    StepSpec topicId ⟨before, conditions, .load⟩ := by
  cases hmerged : merged? conditions before with
  | none =>
      obtain ⟨error, hperform⟩ := perform_load_of_none hmerged
      apply spec_of_unchanged <;>
        simp [accepted, handedOut, moved, merging?, Step.reply, Step.after, hperform, hmerged]
  | some checkpoint =>
      have hafter := engine_after_load hmerged
      have hqueue := queue_after_load hmerged topicId
      constructor <;>
        simp [mergedLive, mergedDead, merging?, moved, handedOut, accepted, Step.reply, hmerged,
          hqueue, hafter, mergeCheckpoint, loaded_of_merged? hmerged]

theorem step_spec (topicId : String) (step : Step Command) : StepSpec topicId step := by
  obtain ⟨before, conditions, command⟩ := step
  cases command with
  | enqueue other message => exact spec_enqueue topicId other message before conditions
  | retrieve other => exact spec_retrieve topicId other before conditions
  | load => exact spec_load topicId before conditions
  | flush =>
      have hengine : (Step.after handle ⟨before, conditions, .flush⟩).engine = before.engine := by
        simp only [Step.after, perform_flush conditions before]
        cases conditions.fault .saveCheckpoint <;> rfl
      apply spec_of_unchanged <;>
        simp [accepted, handedOut, moved, merging?, Step.reply, Broker.queue, hengine]
  | stats =>
      apply spec_of_unchanged <;>
        simp [accepted, handedOut, moved, merging?, Step.reply, Step.after,
          perform_stats conditions before]
  | deadLetters other =>
      apply spec_of_unchanged <;>
        simp [accepted, handedOut, moved, merging?, Step.reply, Step.after,
          perform_deadLetters conditions before other]

/-! ## What a run does to the messages of a topic -/

/-- No retrieve on the topic comes before the load that merges a checkpoint. -/
def MergesFirst (topicId : String) (steps : List (Step Command)) : Prop :=
  steps.Pairwise fun earlier later =>
    (merging? later).isSome → earlier.event ≠ .retrieve topicId

/-- What became of the messages of a topic in the steps of a run, given the queue that it left. -/
structure Fates (topicId : String) (steps : List (Step Command)) (queue : TopicQueue) : Prop where
  conserved : (steps.flatMap (handedOut topicId) ++ queue.dead ++ queue.live).Perm
    (steps.flatMap (accepted topicId) ++ steps.flatMap (mergedLive topicId) ++
      steps.flatMap (mergedDead topicId))
  unexpired : ∀ step ∈ steps, ∀ message ∈ handedOut topicId step,
    message.isExpiredAt step.conditions.now = false
  expired : ∀ step ∈ steps, ∀ message ∈ moved topicId step,
    message.isExpiredAt step.conditions.now = true
  dead : queue.dead = steps.flatMap (mergedDead topicId) ++ steps.flatMap (moved topicId)
  kept : ∀ step ∈ steps, (step.before.queue topicId).dead <:+: queue.dead
  inOrder : MergesFirst topicId steps →
    steps.flatMap (mergedLive topicId) ++ steps.flatMap (accepted topicId) =
      (steps.flatMap fun step => moved topicId step ++ handedOut topicId step) ++ queue.live

/-- Nothing is merged before the engine is loaded. -/
def Unmerged (topicId : String) (steps : List (Step Command)) : Prop :=
  steps.flatMap (mergedLive topicId) = [] ∧ steps.flatMap (mergedDead topicId) = []

/-- A load merges first or not at all, so the dead list grows at its end from then on. -/
theorem Fates.dead_snoc {topicId : String} {steps : List (Step Command)} {step : Step Command}
    (h : Fates topicId steps (step.before.queue topicId))
    (hfirst : step.before.engine.loaded = false → Unmerged topicId steps) :
    ((step.after handle).queue topicId).dead =
      (steps ++ [step]).flatMap (mergedDead topicId) ++
        (steps ++ [step]).flatMap (moved topicId) := by
  have hstep := step_spec topicId step
  rw [hstep.dead, h.dead]
  cases hmerging : merging? step with
  | none => simp [mergedDead, hmerging, List.flatMap_append]
  | some checkpoint =>
      have hloaded := hstep.first (by simp [hmerging])
      have hmoved : moved topicId step = [] := by simp [moved, event_of_merging? hmerging]
      simp [List.flatMap_append, (hfirst hloaded).2, hmoved]

/-- What a load merges stands in front of all that was accepted, if nothing was taken before. -/
theorem Fates.inOrder_snoc {topicId : String} {steps : List (Step Command)} {step : Step Command}
    (h : Fates topicId steps (step.before.queue topicId))
    (hfirst : step.before.engine.loaded = false → Unmerged topicId steps)
    (hmerges : MergesFirst topicId (steps ++ [step])) :
    (steps ++ [step]).flatMap (mergedLive topicId) ++ (steps ++ [step]).flatMap (accepted topicId) =
      ((steps ++ [step]).flatMap fun step => moved topicId step ++ handedOut topicId step) ++
        ((step.after handle).queue topicId).live := by
  obtain ⟨hearlier, -, hlast⟩ := List.pairwise_append.mp hmerges
  have hstep := step_spec topicId step
  have hrun := h.inOrder hearlier
  have hlive := hstep.live
  simp only [List.flatMap_append, List.flatMap_singleton]
  cases hmerging : merging? step with
  | none =>
      have hnone : mergedLive topicId step = [] := by simp [mergedLive, hmerging]
      rw [hnone, List.nil_append] at hlive
      rw [hnone, List.append_nil, ← List.append_assoc, hrun, List.append_assoc, hlive]
      simp only [List.append_assoc]
  | some checkpoint =>
      have hsteps :
          (steps.flatMap fun step => moved topicId step ++ handedOut topicId step) = [] := by
        rw [List.flatMap_eq_nil_iff]
        intro other hother
        exact taken_of_not_retrieve (hlast other hother step (by simp) (by simp [hmerging]))
      have hunmerged := (hfirst (hstep.first (by simp [hmerging]))).1
      have htaken : moved topicId step ++ handedOut topicId step = [] :=
        taken_of_not_retrieve (by simp [event_of_merging? hmerging])
      rw [hsteps, hunmerged, List.nil_append, List.nil_append] at hrun
      rw [htaken, List.nil_append] at hlive
      rw [hsteps, hunmerged, htaken, hrun, ← hlive]
      simp only [List.nil_append, List.append_assoc]

theorem Fates.snoc {topicId : String} {steps : List (Step Command)} {step : Step Command}
    (h : Fates topicId steps (step.before.queue topicId))
    (hfirst : step.before.engine.loaded = false → Unmerged topicId steps) :
    Fates topicId (steps ++ [step]) ((step.after handle).queue topicId) := by
  have hstep := step_spec topicId step
  refine ⟨?_, ?_, ?_, h.dead_snoc hfirst, ?_, h.inOrder_snoc hfirst⟩
  · rw [List.perm_iff_count]
    intro message
    have hrun := List.perm_iff_count.mp h.conserved message
    have hlive := congrArg (List.count message) hstep.live
    have hdead := congrArg (List.count message) hstep.dead
    simp only [List.flatMap_append, List.flatMap_singleton, List.count_append] at *
    omega
  · exact List.forall_mem_append.mpr ⟨h.unexpired, List.forall_mem_singleton.mpr hstep.unexpired⟩
  · exact List.forall_mem_append.mpr ⟨h.expired, List.forall_mem_singleton.mpr hstep.expired⟩
  · have hkept : (step.before.queue topicId).dead <:+: ((step.after handle).queue topicId).dead :=
      ⟨_, _, hstep.dead.symm⟩
    refine List.forall_mem_append.mpr ⟨?_, List.forall_mem_singleton.mpr hkept⟩
    intro other hother
    exact (h.kept other hother).trans hkept

theorem unmerged_snoc {topicId : String} {steps : List (Step Command)} {step : Step Command}
    (h : step.before.engine.loaded = false → Unmerged topicId steps)
    (hloaded : (step.after handle).engine.loaded = false) :
    Unmerged topicId (steps ++ [step]) := by
  rw [(step_spec topicId step).loaded, Bool.or_eq_false_iff] at hloaded
  obtain ⟨hbefore, hmerging⟩ := hloaded
  have hnone : merging? step = none := by simpa using hmerging
  simpa [Unmerged, List.flatMap_append, mergedLive, mergedDead, hnone] using h hbefore

/-- Every message that is accepted or merged has exactly one fate, and the messages of a topic meet
theirs in order: for every store, every course of commands, every failure of storage and every
clock. -/
theorem fates_final (store : Store) (defaultTtl : Nat) (schedule : Schedule Command)
    (topicId : String) :
    Fates topicId (schedule.steps handle (.started store defaultTtl))
      ((schedule.final handle (.started store defaultTtl)).queue topicId) := by
  have hstart : Fates topicId [] ((Broker.started store defaultTtl).queue topicId) := by
    constructor <;> simp [Broker.started, Broker.queue, Engine.fresh, TopicQueue.empty]
  refine (Schedule.run_induction handle (motive := fun steps broker =>
    Fates topicId steps (broker.queue topicId) ∧
      (broker.engine.loaded = false → Unmerged topicId steps)) ⟨hstart, ?_⟩ ?_ schedule).1
  · simp [Unmerged]
  · intro steps step ⟨h, hfirst⟩
    exact ⟨h.snoc hfirst, unmerged_snoc hfirst⟩

end Engine

end TopicBroker
