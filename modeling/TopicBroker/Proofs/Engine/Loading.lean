import TopicBroker.Proofs.Engine.Fate
import TopicBroker.Proofs.Store.Checkpoint

/-! # What a load merges

The first load that gets the checkpoint from storage puts its messages in front of those that are
there, in whatever order its topics come, and drops it. A load that does not get it changes nothing
and can be tried again. Once a checkpoint was merged, every further load is refused. -/

namespace TopicBroker.Engine

open Store (messagesOf readRows groupByTopic)

/-! ## One load -/

/-- What a load makes of the rows of the checkpoint that is stored. -/
structure Restores (live dead : List Store.QueuedMessage) (before after : Broker) : Prop where
  stored : readRows before.store.live = .ok live ∧ readRows before.store.dead = .ok dead
  queue : ∀ topicId, after.queue topicId =
    ⟨messagesOf topicId live ++ (before.queue topicId).live,
      messagesOf topicId dead ++ (before.queue topicId).dead⟩
  known : ∀ topicId, after.engine.queues.contains topicId = true ↔
    before.engine.queues.contains topicId = true ∨ topicId ∈ (live ++ dead).map (·.topicId)
  /-- The topics of the checkpoint may come in any order. -/
  anyOrder : ∀ liveOrder deadOrder, liveOrder.Perm (groupByTopic live).rows →
    deadOrder.Perm (groupByTopic dead).rows →
      after.engine.queues = before.engine.queues.mergeInOrder liveOrder deadOrder ∧
        (liveOrder.map (·.2.length)).sum = live.length
  dropped : after.store.checkpoint = .ok ⟨.empty, .empty⟩
  outside : after = { before with
    store := before.store.dropCheckpoint
    engine := { before.engine with queues := after.engine.queues, loaded := true } }

theorem contains_groupByTopic (topicId : String) (rows : List Store.QueuedMessage) :
    (groupByTopic rows).contains topicId = true ↔ topicId ∈ rows.map (·.topicId) := by
  rw [Table.contains, Store.find?_groupByTopic]
  by_cases h : topicId ∈ rows.map (·.topicId) <;> simp [h]

/-- The number of live messages is told whatever the order of the topics. -/
theorem sum_of_perm {rows : List Store.QueuedMessage} {order : List (String × List Message)}
    (h : order.Perm (groupByTopic rows).rows) : (order.map (·.2.length)).sum = rows.length := by
  rw [(h.map _).sum_nat, ← Store.length_groupByTopic rows, Table.values, List.length_flatten,
    List.map_map]
  rfl

theorem restores_of_stored {live dead : List Store.QueuedMessage} {before : Broker}
    (hlive : readRows before.store.live = .ok live) (hdead : readRows before.store.dead = .ok dead) :
    Restores live dead before
      { mergeCheckpoint ⟨groupByTopic live, groupByTopic dead⟩ before with
        store := before.store.dropCheckpoint } := by
  refine ⟨⟨hlive, hdead⟩, ?_, ?_, ?_, rfl, rfl⟩
  · intro topicId
    simp only [Broker.queue, mergeCheckpoint, Queues.topic_merge, Checkpoint.liveOf,
      Checkpoint.deadOf, Store.getD_groupByTopic]
  · intro topicId
    simp only [mergeCheckpoint, Queues.contains_merge, contains_groupByTopic, List.map_append,
      List.mem_append]
  · intro liveOrder deadOrder hliveOrder hdeadOrder
    exact ⟨(Queues.mergeInOrder_of_perm hliveOrder hdeadOrder _).symm, sum_of_perm hliveOrder⟩

section

variable {conditions : Conditions} {before : Broker}

/-- A load that can fetch the checkpoint and drop it restores it. -/
theorem perform_load_of_stored {live dead : List Store.QueuedMessage}
    (hloaded : before.engine.loaded = false) (hfetch : conditions.fault .fetchCheckpoint = none)
    (hdrop : conditions.fault .dropCheckpoint = none)
    (hlive : readRows before.store.live = .ok live)
    (hdead : readRows before.store.dead = .ok dead) :
    ∃ after, (handle .load).perform conditions before = (.ok live.length, after) ∧
      Restores live dead before after := by
  have hcheckpoint : before.store.checkpoint = .ok ⟨groupByTopic live, groupByTopic dead⟩ :=
    Store.checkpoint_eq_ok_iff.mpr ⟨live, dead, hlive, hdead, rfl⟩
  have hmerged := merged?_eq_some_iff.mpr ⟨hloaded, hfetch, hcheckpoint⟩
  refine ⟨_, ?_, restores_of_stored hlive hdead⟩
  rw [perform_load_of_some hmerged, hdrop, Store.length_groupByTopic]

/-- Only a load that restores the checkpoint succeeds. -/
theorem restores_of_perform_load {count : Nat} {after : Broker}
    (h : (handle .load).perform conditions before = (.ok count, after)) :
    ∃ live dead, count = live.length ∧ Restores live dead before after := by
  cases hmerged : merged? conditions before with
  | none =>
      obtain ⟨error, hperform⟩ := perform_load_of_none hmerged
      rw [hperform] at h
      cases h
  | some checkpoint =>
      obtain ⟨hloaded, hfetch, hcheckpoint⟩ := merged?_eq_some_iff.mp hmerged
      obtain ⟨live, dead, hlive, hdead, rfl⟩ := Store.checkpoint_eq_ok_iff.mp hcheckpoint
      cases hdrop : conditions.fault .dropCheckpoint with
      | some error =>
          rw [perform_load_of_some hmerged, hdrop] at h
          cases h
      | none =>
          obtain ⟨restored, hperform, hrestores⟩ :=
            perform_load_of_stored hloaded hfetch hdrop hlive hdead
          rw [hperform] at h
          cases h
          exact ⟨live, dead, rfl, hrestores⟩

/-- A load that does not get the checkpoint leaves everything as it is. -/
theorem perform_load_of_not_fetched {error : BrokerError} (hloaded : before.engine.loaded = false)
    (h : (Storage.fetchCheckpoint.perform conditions before).1 = .error error) :
    (handle .load).perform conditions before = (.error error, before) := by
  have hall : Storage.fetchCheckpoint.perform conditions before = (.error error, before) :=
    Prod.ext h perform_fetchCheckpoint_snd
  simp [handle, handleLoad, hloaded, hall]

theorem perform_load_of_loaded (h : before.engine.loaded = true) :
    (handle .load).perform conditions before =
      (.error (.failedPrecondition "queue already loaded from storage"), before) := by
  simp [handle, handleLoad, h]

end

/-! ## Runs -/

/-- Some step has merged a checkpoint. -/
def HasMerged (steps : List (Step Command)) : Prop :=
  ∃ step ∈ steps, (merging? step).isSome

/-- The engine remembers whether it has merged a checkpoint. -/
theorem loaded_final_iff (store : Store) (defaultTtl : Nat) (schedule : Schedule Command) :
    (schedule.final handle (.started store defaultTtl)).engine.loaded = true ↔
      HasMerged (schedule.steps handle (.started store defaultTtl)) := by
  refine Schedule.run_induction handle (motive := fun steps broker =>
    broker.engine.loaded = true ↔ HasMerged steps) ?_ ?_ schedule
  · simp [HasMerged, Broker.started, Engine.fresh]
  · intro steps step ih
    rw [(step_spec "" step).loaded, Bool.or_eq_true, ih]
    simp [HasMerged, or_and_right, exists_or]

/-- What a load does behind the steps of a run. -/
structure LoadOutcome (earlier : List (Step Command)) (step : Step Command) : Prop where
  succeeds : ¬ HasMerged earlier → step.conditions.fault .fetchCheckpoint = none →
    step.conditions.fault .dropCheckpoint = none → ∀ live dead,
      readRows step.before.store.live = .ok live → readRows step.before.store.dead = .ok dead →
        step.reply handle = ⟨.load, .ok live.length⟩
  restores : ∀ count, step.reply handle = ⟨.load, .ok count⟩ →
    ∃ live dead, count = live.length ∧ Restores live dead step.before (step.after handle)
  unfetched : ¬ HasMerged earlier → ∀ error,
    (Storage.fetchCheckpoint.perform step.conditions step.before).1 = .error error →
      step.reply handle = ⟨.load, .error error⟩ ∧ step.after handle = step.before ∧
        ∀ conditions, (handle .load).perform conditions (step.after handle) =
          (handle .load).perform conditions step.before
  refused : HasMerged earlier → step.after handle = step.before ∧ step.reply handle =
    ⟨.load, .error (.failedPrecondition "queue already loaded from storage")⟩

/-- In every run, whatever else the engine does in between: a load that gets the checkpoint merges
it in front of what is there and drops it, one that does not get it changes nothing, and none is
carried out after a checkpoint was merged. -/
theorem loads_once (store : Store) (defaultTtl : Nat) (schedule : Schedule Command)
    {earlier later : List (Step Command)} {step : Step Command}
    (hsteps : schedule.steps handle (.started store defaultTtl) = earlier ++ step :: later)
    (hevent : step.event = .load) : LoadOutcome earlier step := by
  obtain ⟨front, back, rfl, hfront, hbefore⟩ :=
    Schedule.exists_run_to_of_steps_eq handle hsteps
  have hloaded := loaded_final_iff store defaultTtl front
  rw [hfront, hbefore] at hloaded
  obtain ⟨before, conditions, event⟩ := step
  obtain rfl : event = _ := hevent
  have hunloaded (h : ¬ HasMerged earlier) := Bool.eq_false_iff.mpr (mt hloaded.mp h)
  refine ⟨?_, ?_, ?_, ?_⟩
  · intro hmerged hfetch hdrop live dead hlive hdead
    obtain ⟨after, hperform, -⟩ :=
      perform_load_of_stored (hunloaded hmerged) hfetch hdrop hlive hdead
    rw [Step.reply, hperform]
  · intro count hreply
    have hperform : (handle .load).perform conditions before = (.ok count, _) :=
      Prod.ext (eq_of_heq (Sigma.mk.inj hreply).2) rfl
    exact restores_of_perform_load hperform
  · intro hmerged error hfetch
    have hperform := perform_load_of_not_fetched (hunloaded hmerged) hfetch
    have hafter : Step.after handle ⟨before, conditions, .load⟩ = before := by
      rw [Step.after, hperform]
    exact ⟨by rw [Step.reply, hperform], hafter, fun _ => by rw [hafter]⟩
  · intro hmerged
    have hloaded := hloaded.mpr hmerged
    exact ⟨by rw [Step.after, perform_load_of_loaded hloaded],
      by rw [Step.reply, perform_load_of_loaded hloaded]⟩

/-- The store of a broker that has saved one message. -/
def savedOnce : Store :=
  Store.empty.saveCheckpoint [Store.rowOf "t" "older"] []

/-- Storage works but for fetching the checkpoint. -/
def unfetchable : Conditions where
  now := (Conditions.calm "row").now
  fault
    | .fetchCheckpoint => some (.internal "storage is unavailable")
    | _ => none
  fresh := (Conditions.calm "row").fresh

/-- A message is put in line before the checkpoint is loaded, at the second attempt. -/
def secondTry : Schedule Command :=
  [(.calm "row", .enqueue "t" (Store.rowOf "t" "newer").message), (unfetchable, .load),
    (.calm "row", .load)]

theorem loads_once_secondTry :
    ∃ earlier step, secondTry.steps handle (.started savedOnce 60) = earlier ++ step :: [] ∧
      step.event = .load ∧ step.reply handle = ⟨.load, .ok 1⟩ ∧
      ((step.after handle).queue "t").live =
        [(Store.rowOf "t" "older").message, (Store.rowOf "t" "newer").message] := by
  let first : Step Command := ⟨.started savedOnce 60, .calm "row",
    .enqueue "t" (Store.rowOf "t" "newer").message⟩
  let second : Step Command := ⟨first.after handle, unfetchable, .load⟩
  let third : Step Command := ⟨second.after handle, .calm "row", .load⟩
  have hsteps : secondTry.steps handle (.started savedOnce 60) = [first, second] ++ third :: [] :=
    rfl
  have hspec := loads_once savedOnce 60 secondTry hsteps rfl
  have hunmerged : ¬ HasMerged [first, second] := by
    rintro ⟨step, hstep, hmerging⟩
    simp only [List.mem_cons, List.not_mem_nil, or_false] at hstep
    rcases hstep with rfl | rfl <;> cases hmerging
  have hone : [Store.rowOf "t" "older"].length ≤ 10 ^ 20 := by decide
  have hnone : ([] : List Store.QueuedMessage).length ≤ 10 ^ 20 := by decide
  have hreply := hspec.succeeds hunmerged rfl rfl _ _ (Store.readRows_numberRows hone)
    (Store.readRows_numberRows hnone)
  refine ⟨[first, second], third, hsteps, rfl, hreply, ?_⟩
  obtain ⟨live, dead, -, hrestores⟩ := hspec.restores _ hreply
  have hlive : live = [Store.rowOf "t" "older"] :=
    Except.ok.inj (hrestores.stored.1.symm.trans (Store.readRows_numberRows hone))
  rw [hrestores.queue, hlive]
  rfl

end TopicBroker.Engine
