import TopicBroker.Proofs.Traffic.World

/-! # What is known of calls in flight

Whatever the order in which calls take their steps: a call goes where it has looked up that it has
to go, every answer of the engine is held by one call, and what a call returns is what it concludes
from that answer. -/

namespace TopicBroker.Traffic

variable {conditions : Conditions} {world next : World} {move : Move}

/-! ## What calls look up -/

/-- What a call has found out. -/
def Stage.target? {call : Call} : Stage call → Option call.Target
  | .addressed target => some target
  | .waiting target => some target
  | .answered target _ => some target
  | .returned target _ _ => some target
  | .called => none
  | .refused _ => none

/-- At some point of a run the call looked the target up. -/
def LookedUp (start : World) (schedule : Schedule Move) (caller : Nat) (call : Call)
    (target : call.Target) : Prop :=
  ∃ front conditions back, schedule = front ++ (conditions, .advance caller) :: back ∧
    (start.run front).calls[caller]? = some ⟨call, .called⟩ ∧
    (call.lookUp.perform conditions (start.run front).broker).1 = .ok target

theorem LookedUp.concat {start : World} {schedule : Schedule Move} {caller : Nat} {call : Call}
    {target : call.Target} (h : LookedUp start schedule caller call target)
    (entry : Conditions × Move) : LookedUp start (schedule ++ [entry]) caller call target := by
  obtain ⟨front, conditions, back, rfl, hcalled, hfound⟩ := h
  exact ⟨front, conditions, back ++ [entry], by simp, hcalled, hfound⟩

/-- All targets that calls go to were looked up by them. -/
def AllLookedUp (start : World) (schedule : Schedule Move) (world : World) : Prop :=
  ∀ caller call stage target, world.calls[caller]? = some ⟨call, stage⟩ →
    stage.target? = some target → LookedUp start schedule caller call target

theorem eq_or_of_getElem?_set {α : Type} {list : List α} {i j : Nat} {a b : α}
    (h : (list.set i a)[j]? = some b) : i = j ∧ b = a ∨ list[j]? = some b := by
  by_cases hij : i = j
  · subst hij
    rw [List.getElem?_set_self'] at h
    obtain ⟨_, -, hb⟩ := Option.map_eq_some_iff.mp h
    exact .inl ⟨rfl, hb.symm⟩
  · rw [List.getElem?_set_ne hij] at h
    exact .inr h

theorem AllLookedUp.snoc {start : World} {schedule : Schedule Move}
    (h : AllLookedUp start schedule (start.run schedule))
    (hhappens : Happens conditions (start.run schedule) move next) :
    AllLookedUp start (schedule ++ [(conditions, move)]) next := by
  have hkept : AllLookedUp start (schedule ++ [(conditions, move)]) (start.run schedule) := by
    intro caller call stage target hentry htarget
    exact (h caller call stage target hentry htarget).concat _
  have hset {caller : Nat} {call : Call} {stage : Stage call}
      (hentry : ∀ target, stage.target? = some target →
        LookedUp start (schedule ++ [(conditions, move)]) caller call target) :
      ∀ other call' stage' target,
        ((start.run schedule).calls.set caller ⟨call, stage⟩)[other]? = some ⟨call', stage'⟩ →
        stage'.target? = some target →
        LookedUp start (schedule ++ [(conditions, move)]) other call' target := by
    intro other call' stage' target hother htarget
    rcases eq_or_of_getElem?_set hother with ⟨rfl, heq⟩ | hother
    · cases heq
      exact hentry target htarget
    · exact hkept other call' stage' target hother htarget
  cases hhappens with
  | nothing => exact hkept
  | called call =>
      intro other call' stage target hother htarget
      rw [World.join, List.getElem?_append] at hother
      split at hother
      · exact hkept other call' stage target hother htarget
      · cases List.mem_singleton.mp (List.mem_of_getElem? hother)
        cases htarget
  | addressed hentry hfound =>
      refine hset ?_
      intro target htarget
      cases htarget
      exact ⟨schedule, conditions, [], by simp, hentry, hfound⟩
  | refused error hentry hunsent =>
      refine hset ?_
      intro target htarget
      cases htarget
  | sent hentry | worked hentry | returned _ hentry =>
      exact hset fun target htarget => hkept _ _ _ target hentry htarget
  | elsewhere change => exact hkept

/-! ## What the engine has answered -/

/-- A message that an enqueue took in, told by its answer. -/
def acceptedBy (topicId : String) :
    (command : Command) × Except BrokerError command.Reply → List Message
  | ⟨.enqueue other message, .ok ()⟩ => if other = topicId then [message] else []
  | _ => []

/-- A message that a retrieve handed out, told by its answer. -/
def handedOutBy (topicId : String) :
    (command : Command) × Except BrokerError command.Reply → List Message
  | ⟨.retrieve other, .ok (some message)⟩ => if other = topicId then [message] else []
  | _ => []

theorem fst_of_mem_acceptedBy {topicId : String} {message : Message}
    {outcome : (command : Command) × Except BrokerError command.Reply}
    (h : message ∈ acceptedBy topicId outcome) : outcome.1 = .enqueue topicId message := by
  unfold acceptedBy at h
  split at h
  · split at h
    · next htopic => rw [List.mem_singleton.mp h, htopic]
    · cases h
  · cases h

theorem perm_filterMap_set {α β : Type} {list : List α} {i : Nat} {a b : α} (f : α → Option β)
    (h : list[i]? = some a) :
    ((list.set i b).filterMap f ++ (f a).toList).Perm (list.filterMap f ++ (f b).toList) := by
  simp only [List.filterMap_eq_flatMap_toList]
  induction list generalizing i with
  | nil => cases h
  | cons x xs ih =>
      cases i with
      | zero =>
          obtain rfl : x = a := Option.some.inj h
          rw [List.set_cons_zero, List.flatMap_cons, List.flatMap_cons, List.append_assoc]
          exact List.perm_append_comm.trans (List.perm_append_comm.append_right _)
      | succ i =>
          rw [List.set_cons_succ, List.flatMap_cons, List.flatMap_cons, List.append_assoc,
            List.append_assoc]
          exact (ih h).append_left _

/-- What the engine has done, and what the calls have learned of it. -/
structure Course (world : World) : Prop where
  /-- Every answer of the engine is held by a call, and by one only. -/
  outcomes : (world.calls.filterMap Entry.outcome?).Perm
    (world.history.map (Step.reply Engine.handle))
  commands : ∀ step ∈ world.history, ∃ call target, step.event = Call.command call target
  fates : ∀ topicId, Engine.Fates topicId world.history (world.broker.queue topicId)

/-- Nothing is merged by calls. -/
theorem Course.merging? (h : Course world) {step : Step Command} (hstep : step ∈ world.history) :
    Engine.merging? step = none := by
  obtain ⟨call, target, hevent⟩ := h.commands step hstep
  cases hmerging : Engine.merging? step with
  | none => rfl
  | some checkpoint =>
      have hload := hevent.symm.trans (Engine.event_of_merging? hmerging)
      cases call <;> cases hload

theorem Course.unmerged (h : Course world) (topicId : String) :
    Engine.Unmerged topicId world.history := by
  constructor
  · refine List.flatMap_eq_nil_iff.mpr ?_
    intro step hstep
    rw [Engine.mergedLive, h.merging? hstep]
    rfl
  · refine List.flatMap_eq_nil_iff.mpr ?_
    intro step hstep
    rw [Engine.mergedDead, h.merging? hstep]
    rfl

theorem course_started (store : Store) (defaultTtl : Nat) : Course (.started store defaultTtl) := by
  constructor
  · exact List.Perm.refl _
  · intro step hstep
    cases hstep
  · intro topicId
    constructor <;>
      simp [World.started, Broker.started, Broker.queue, Engine.fresh, TopicQueue.empty]

/-- A call whose step the engine has no part in changes nothing here. -/
theorem Course.set (h : Course world) {caller : Nat} {entry entry' : Entry}
    (hentry : world.calls[caller]? = some entry)
    (hcalls : next.calls = world.calls.set caller entry')
    (houtcome : entry.outcome? = entry'.outcome?)
    (hhistory : next.history = world.history)
    (hqueues : next.broker.engine.queues = world.broker.engine.queues) : Course next := by
  refine ⟨?_, hhistory ▸ h.commands, ?_⟩
  · have hperm := perm_filterMap_set (b := entry') Entry.outcome? hentry
    rw [houtcome] at hperm
    rw [hcalls, hhistory]
    exact ((List.perm_append_right_iff _).mp hperm).trans h.outcomes
  · intro topicId
    rw [Broker.queue, hhistory, hqueues]
    exact h.fates topicId

/-- The engine answers a call. -/
theorem Course.work (h : Course world) {caller : Nat} {call : Call} {target : call.Target}
    (hentry : world.calls[caller]? = some ⟨call, .waiting target⟩) {step : Step Command}
    (hqueues : step.before.engine.queues = world.broker.engine.queues)
    {reply : call.Reply target} (hreply : step.reply Engine.handle = ⟨call.command target, reply⟩)
    (hbroker : next.broker = step.after Engine.handle)
    (hcalls : next.calls = world.calls.set caller ⟨call, .answered target reply⟩)
    (hhistory : next.history = world.history ++ [step]) : Course next := by
  refine ⟨?_, ?_, ?_⟩
  · have hwaits : Entry.outcome? ⟨call, .waiting target⟩ = none := rfl
    have hanswered : Entry.outcome? ⟨call, .answered target reply⟩ =
        some (step.reply Engine.handle) := congrArg some hreply.symm
    have hperm := perm_filterMap_set (b := ⟨call, .answered target reply⟩) Entry.outcome? hentry
    rw [hwaits, hanswered, Option.toList_none, List.append_nil] at hperm
    rw [hcalls, hhistory, List.map_append]
    exact hperm.trans (h.outcomes.append_right _)
  · rw [hhistory]
    refine List.forall_mem_append.mpr ⟨h.commands, List.forall_mem_singleton.mpr ?_⟩
    exact ⟨call, target, congrArg Sigma.fst hreply⟩
  · intro topicId
    have hfates : Engine.Fates topicId world.history (step.before.queue topicId) := by
      rw [Broker.queue, hqueues]
      exact h.fates topicId
    rw [hhistory, hbroker]
    exact hfates.snoc fun _ => h.unmerged topicId

theorem Course.of_happens (h : Course world) (hhappens : Happens conditions world move next) :
    Course next := by
  cases hhappens with
  | nothing => exact h
  | called call =>
      refine ⟨?_, h.commands, h.fates⟩
      rw [World.join, List.filterMap_append]
      exact (List.append_nil _).symm ▸ h.outcomes
  | addressed hentry hfound => exact h.set hentry rfl rfl rfl rfl
  | refused error hentry hunsent =>
      refine h.set hentry rfl ?_ rfl rfl
      obtain rfl | ⟨target, rfl⟩ := hunsent <;> rfl
  | sent hentry => exact h.set hentry rfl rfl rfl rfl
  | worked hentry hline hmailbox hworking hanswer =>
      obtain rfl := hworking
      exact h.work hentry rfl hanswer rfl rfl rfl
  | returned store hentry => exact h.set hentry rfl rfl rfl rfl
  | elsewhere change => exact ⟨h.outcomes, h.commands, h.fates⟩

/-! ## What calls have answered -/

/-- What a call has returned is what it concluded from the answer of the engine. -/
def Entry.Concluded : Entry → Prop
  | ⟨call, .returned target reply answer⟩ =>
    ∃ conditions broker, ((call.conclude target reply).perform conditions broker).1 = answer
  | _ => True

theorem concluded_of_happens (h : ∀ entry ∈ world.calls, entry.Concluded)
    (hhappens : Happens conditions world move next) : ∀ entry ∈ next.calls, entry.Concluded := by
  have hset (caller : Nat) {entry : Entry} (hentry : entry.Concluded) :
      ∀ other ∈ world.calls.set caller entry, other.Concluded := by
    intro other hother
    rcases List.mem_or_eq_of_mem_set hother with hother | rfl
    · exact h other hother
    · exact hentry
  cases hhappens with
  | nothing | elsewhere => exact h
  | called call => exact List.forall_mem_append.mpr ⟨h, List.forall_mem_singleton.mpr trivial⟩
  | addressed | refused | sent | worked => exact hset _ trivial
  | returned store hentry => exact hset _ ⟨_, _, rfl⟩

/-- A call that publishes and tells an id has put the message of this id in line. -/
theorem of_concluded_publish {publisher : ClientId} {draft : Draft} {topicId : String}
    {message : Message} {reply : (Call.publish publisher draft).Reply (topicId, message)}
    {id : String}
    (h : Entry.Concluded ⟨.publish publisher draft, .returned (topicId, message) reply (.ok id)⟩) :
    reply = .ok () ∧ message.id = id := by
  obtain ⟨conditions, broker, h⟩ := h
  rw [perform_conclude_publish] at h
  split at h
  · cases h
  · cases h
  · exact ⟨rfl, Except.ok.inj h⟩

/-- A call that reads returns what the engine has answered. -/
theorem of_concluded_read {subscriber : ClientId} {topicName topicId : String}
    {reply : (Call.readMessage subscriber topicName).Reply topicId}
    {answer : Except BrokerError (Option Message)}
    (h : Entry.Concluded ⟨.readMessage subscriber topicName, .returned topicId reply answer⟩) :
    reply = answer := by
  obtain ⟨conditions, broker, h⟩ := h
  exact h

/-- What is known of a world that is reached. -/
structure Reached (start : World) (schedule : Schedule Move) (world : World) : Prop where
  lookedUp : AllLookedUp start schedule world
  course : Course world
  concluded : ∀ entry ∈ world.calls, entry.Concluded

theorem reached_run (store : Store) (defaultTtl : Nat) (schedule : Schedule Move) :
    Reached (.started store defaultTtl) schedule
      ((World.started store defaultTtl).run schedule) := by
  refine World.run_induction (lined_started store defaultTtl) ?_ ?_ schedule
  · refine ⟨?_, course_started store defaultTtl, ?_⟩
    · intro caller call stage target hentry
      cases hentry
    · intro entry hentry
      cases hentry
  · intro schedule conditions move next hhappens h
    exact ⟨h.lookedUp.snoc hhappens, h.course.of_happens hhappens,
      concluded_of_happens h.concluded hhappens⟩

end TopicBroker.Traffic
