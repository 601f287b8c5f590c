import TopicBroker.Proofs.Engine.Fate
import TopicBroker.Proofs.Store.Checkpoint

/-! # How often a checkpoint is merged

A load merges the checkpoint and then drops it. A checkpoint that was dropped is not merged again,
in whichever lifetime of the engine. One that could not be dropped is in the queues and in the
store, and the next lifetime merges it once more. -/

namespace TopicBroker.Engine

/-! ## Lifetimes over one store -/

/-- What an engine does next: it carries a command out, or a new one starts on its store. -/
inductive Turn where
  | command (command : Command)
  | restart

namespace Turn

abbrev Answer : Turn → Type
  | command c => c.Reply
  | restart => Unit

def act : (turn : Turn) → Action turn.Answer
  | command c => handle c
  | restart => Engine.restart

section

variable (step : Step Turn)

/-- The checkpoint that a turn merges. -/
def merging? : Option Checkpoint :=
  match step.event with
  | .command .load => merged? step.conditions step.before
  | _ => none

/-- The turn merges a checkpoint that has messages. -/
def Merges : Prop :=
  ∃ checkpoint, merging? step = some checkpoint ∧ checkpoint.isEmpty = false

/-- The turn replaces the checkpoint. -/
def Saves : Prop :=
  step.event = .command .flush ∧ step.conditions.fault .saveCheckpoint = none

end

/-- No checkpoint is merged twice: it is saved anew between two turns that merge it. -/
def MergedOnce (steps : List (Step Turn)) : Prop :=
  ∀ earlier first between second later, steps = earlier ++ first :: between ++ second :: later →
    Merges first → Merges second → ∃ step ∈ between, Saves step

/-! ## What a turn does to the stored checkpoint -/

/-- The checkpoint as it is stored. -/
def stored (broker : Broker) : Table String × Table String :=
  (broker.store.live, broker.store.dead)

theorem checkpoint_of_stored {broker other : Broker} (h : stored broker = stored other) :
    broker.store.checkpoint = other.store.checkpoint := by
  obtain ⟨hlive, hdead⟩ := Prod.mk.inj h
  rw [Store.checkpoint, Store.checkpoint, hlive, hdead]

theorem event_of_merging? {step : Step Turn} {checkpoint : Checkpoint}
    (h : merging? step = some checkpoint) : step.event = .command .load := by
  unfold merging? at h
  split at h
  · assumption
  · cases h

/-- What a turn merges is what is stored. -/
theorem checkpoint_of_merging? {step : Step Turn} {checkpoint : Checkpoint}
    (h : merging? step = some checkpoint) : step.before.store.checkpoint = .ok checkpoint := by
  obtain ⟨before, conditions, event⟩ := step
  obtain rfl : event = _ := event_of_merging? h
  exact (merged?_eq_some_iff.mp h).2.2

/-- What a turn does to the checkpoint that is stored. -/
structure Spec (step : Step Turn) : Prop where
  mailbox : (step.after act).engine.mailbox = []
  kept : ¬ Saves step → merging? step = none → stored (step.after act) = stored step.before
  dropped : ∀ checkpoint, merging? step = some checkpoint →
    step.conditions.fault .dropCheckpoint = none → stored (step.after act) = (.empty, .empty)
  undropped : ∀ checkpoint error, merging? step = some checkpoint →
    step.conditions.fault .dropCheckpoint = some error →
      step.after act = mergeCheckpoint checkpoint step.before

theorem spec_of_kept {step : Step Turn} (hmailbox : (step.after act).engine.mailbox = [])
    (hmerging : merging? step = none)
    (hkept : ¬ Saves step → stored (step.after act) = stored step.before) : Spec step := by
  refine ⟨hmailbox, fun hsaves _ => hkept hsaves, ?_, ?_⟩
  · intro checkpoint hcheckpoint
    rw [hmerging] at hcheckpoint
    cases hcheckpoint
  · intro checkpoint error hcheckpoint
    rw [hmerging] at hcheckpoint
    cases hcheckpoint

theorem spec_load {before : Broker} (conditions : Conditions)
    (hmailbox : (Step.after act ⟨before, conditions, .command .load⟩).engine.mailbox = []) :
    Spec ⟨before, conditions, .command .load⟩ := by
  cases hmerged : merged? conditions before with
  | none =>
      obtain ⟨error, hperform⟩ := perform_load_of_none hmerged
      refine spec_of_kept hmailbox hmerged fun _ => ?_
      rw [Step.after, act, hperform]
  | some checkpoint =>
      have hmerging : merging? ⟨before, conditions, .command .load⟩ = some checkpoint := hmerged
      have hperform := perform_load_of_some hmerged
      refine ⟨hmailbox, ?_, ?_, ?_⟩
      · intro _ hnone
        rw [hmerging] at hnone
        cases hnone
      · intro other _ hfault
        rw [hfault] at hperform
        rw [Step.after, act, hperform]
        rfl
      · intro other error hother hfault
        obtain rfl := Option.some.inj (hmerging.symm.trans hother)
        rw [hfault] at hperform
        rw [Step.after, act, hperform]

theorem turn_spec {step : Step Turn} (hwait : step.before.engine.mailbox = []) : Spec step := by
  obtain ⟨before, conditions, event⟩ := step
  cases event with
  | restart =>
      have hafter : Step.after act ⟨before, conditions, .restart⟩ =
          { before with engine := .fresh } := congrArg Prod.snd (perform_restart hwait)
      exact spec_of_kept (by rw [hafter]; rfl) rfl fun _ => by rw [hafter]; rfl
  | command command =>
      have hmailbox : (Step.after act ⟨before, conditions, .command command⟩).engine.mailbox = [] :=
        (mailbox_perform_handle command).trans hwait
      cases command with
      | enqueue topicId message =>
          refine spec_of_kept hmailbox rfl fun _ => ?_
          by_cases haccepts : Accepts topicId message
          · rw [Step.after, act, perform_enqueue_of_accepts _ _ haccepts]
            rfl
          · obtain ⟨detail, hperform⟩ := perform_enqueue_of_not_accepts haccepts
            rw [Step.after, act, hperform]
      | retrieve topicId =>
          refine spec_of_kept hmailbox rfl fun _ => ?_
          rw [Step.after, act, perform_retrieve]
          rfl
      | load => exact spec_load conditions hmailbox
      | flush =>
          refine spec_of_kept hmailbox rfl fun hsaves => ?_
          cases hfault : conditions.fault .saveCheckpoint with
          | none => exact absurd ⟨rfl, hfault⟩ hsaves
          | some error =>
              have hperform := perform_flush conditions before
              rw [hfault] at hperform
              rw [Step.after, act, hperform]
      | stats =>
          refine spec_of_kept hmailbox rfl fun _ => ?_
          rw [Step.after, act, perform_stats]
      | deadLetters topicId =>
          refine spec_of_kept hmailbox rfl fun _ => ?_
          rw [Step.after, act, perform_deadLetters]

/-! ## Runs -/

/-- No messages are stored. -/
def Bare (broker : Broker) : Prop :=
  stored broker = (.empty, .empty)

theorem not_merges_of_bare {step : Step Turn} (h : Bare step.before) : ¬ Merges step := by
  rintro ⟨checkpoint, hmerging, hmessages⟩
  have hcheckpoint := checkpoint_of_merging? hmerging
  have hstored : stored step.before = stored (.fresh 0) := h
  have hempty := checkpoint_of_stored hstored
  rw [hcheckpoint] at hempty
  obtain rfl : checkpoint = ⟨.empty, .empty⟩ := Except.ok.inj hempty
  cases hmessages

/-- A store without messages stays so until a checkpoint is saved. -/
theorem Spec.bare {step : Step Turn} (h : Spec step) (hsaves : ¬ Saves step)
    (hbare : Bare step.before) : Bare (step.after act) := by
  cases hmerging : merging? step with
  | none => exact (h.kept hsaves hmerging).trans hbare
  | some checkpoint =>
      cases hfault : step.conditions.fault .dropCheckpoint with
      | none => exact h.dropped checkpoint hmerging hfault
      | some error =>
          rw [h.undropped checkpoint error hmerging hfault]
          exact hbare

/-- Nothing waits for the engine at any step of a run. -/
theorem mailbox_of_mem_steps {schedule : Schedule Turn} {broker : Broker}
    (h : broker.engine.mailbox = []) {step : Step Turn} (hstep : step ∈ schedule.steps act broker) :
    step.before.engine.mailbox = [] := by
  induction schedule generalizing broker with
  | nil => cases hstep
  | cons entry schedule ih =>
      rcases List.mem_cons.mp hstep with rfl | hstep
      · exact h
      · have hspec : Spec ⟨broker, entry.1, entry.2⟩ := turn_spec h
        exact ih hspec.mailbox hstep

/-- What a run does with the checkpoints that are stored. -/
structure Merging (steps : List (Step Turn)) : Prop where
  /-- Where two turns merge a checkpoint it was saved in between, or the first could not drop it. -/
  once : ∀ earlier first between second later,
    steps = earlier ++ first :: between ++ second :: later → Merges first → Merges second →
      (∃ step ∈ between, Saves step) ∨ ∃ error, first.conditions.fault .dropCheckpoint = some error
  /-- A load that fails has changed nothing, or it has merged what it could not drop. -/
  failed : ∀ step ∈ steps, ∀ error, step.reply act = ⟨.command .load, .error error⟩ →
    step.after act = step.before ∨
      step.conditions.fault .dropCheckpoint = some error ∧ ∃ checkpoint,
        merging? step = some checkpoint ∧ step.after act = mergeCheckpoint checkpoint step.before
  /-- What could not be dropped, and is not replaced, is what the next load merges that merges. -/
  again : ∀ earlier first between second later,
    steps = earlier ++ first :: between ++ second :: later →
      ∀ checkpoint error, merging? first = some checkpoint →
        first.conditions.fault .dropCheckpoint = some error →
        (∀ step ∈ between, ¬ Saves step ∧ merging? step = none) →
          ∀ other, merging? second = some other → other = checkpoint

section

variable {schedule : Schedule Turn} {broker : Broker} {earlier between later : List (Step Turn)}
  {first second : Step Turn}

/-- What the first of two steps brings about, and those in between keep, the second one finds. -/
theorem before_of_steps_eq (hmailbox : broker.engine.mailbox = [])
    (h : schedule.steps act broker = earlier ++ first :: between ++ second :: later)
    {P : Broker → Prop} (hfirst : Spec first → P (first.after act))
    (hbetween : ∀ step ∈ between, Spec step → P step.before → P (step.after act)) :
    P second.before := by
  have hspec {step : Step Turn} (hstep : step ∈ earlier ++ first :: between ++ second :: later) :
      Spec step := turn_spec (mailbox_of_mem_steps hmailbox (h ▸ hstep))
  obtain ⟨middle, hmiddle, hfinal⟩ := Schedule.exists_between_of_steps_eq act h
  rw [← hfinal]
  refine Schedule.final_of_steps act ?_ (hfirst (hspec (by simp)))
  intro step hstep
  rw [hmiddle] at hstep
  exact hbetween step hstep (hspec (by simp [hstep]))

theorem once_of_steps_eq (hmailbox : broker.engine.mailbox = [])
    (h : schedule.steps act broker = earlier ++ first :: between ++ second :: later)
    (hfirst : Merges first) (hsecond : Merges second) :
    (∃ step ∈ between, Saves step) ∨
      ∃ error, first.conditions.fault .dropCheckpoint = some error := by
  cases hfault : first.conditions.fault .dropCheckpoint with
  | some error => exact .inr ⟨error, rfl⟩
  | none =>
      obtain ⟨checkpoint, hmerging, -⟩ := hfirst
      refine .inl (Classical.byContradiction fun hnone => ?_)
      -- The first turn left nothing stored, and nothing but a save stores anything.
      have hbare : Bare second.before := by
        refine before_of_steps_eq hmailbox h ?_ ?_
        · exact fun hspec => hspec.dropped checkpoint hmerging hfault
        · exact fun step hstep hspec => hspec.bare fun hsaves => hnone ⟨step, hstep, hsaves⟩
      exact not_merges_of_bare hbare hsecond

theorem again_of_steps_eq (hmailbox : broker.engine.mailbox = [])
    (h : schedule.steps act broker = earlier ++ first :: between ++ second :: later)
    {checkpoint other : Checkpoint} {error : BrokerError}
    (hmerging : merging? first = some checkpoint)
    (hfault : first.conditions.fault .dropCheckpoint = some error)
    (hbetween : ∀ step ∈ between, ¬ Saves step ∧ merging? step = none)
    (hother : merging? second = some other) : other = checkpoint := by
  have hstill : stored second.before = stored first.before := by
    refine before_of_steps_eq hmailbox h (P := fun broker => stored broker = stored first.before)
      ?_ ?_
    · intro hspec
      rw [hspec.undropped checkpoint error hmerging hfault]
      rfl
    · intro step hstep hspec hstored
      obtain ⟨hsaves, hnone⟩ := hbetween step hstep
      exact (hspec.kept hsaves hnone).trans hstored
  have hfetched := checkpoint_of_stored hstill
  rw [checkpoint_of_merging? hmerging, checkpoint_of_merging? hother] at hfetched
  exact Except.ok.inj hfetched

end

theorem failed_of_reply {step : Step Turn} {error : BrokerError}
    (h : step.reply act = ⟨.command .load, .error error⟩) :
    step.after act = step.before ∨
      step.conditions.fault .dropCheckpoint = some error ∧ ∃ checkpoint,
        merging? step = some checkpoint ∧
          step.after act = mergeCheckpoint checkpoint step.before := by
  obtain ⟨before, conditions, event⟩ := step
  obtain rfl : event = _ := congrArg Sigma.fst h
  have hanswer : ((handle .load).perform conditions before).1 = .error error :=
    eq_of_heq (Sigma.mk.inj h).2
  cases hmerged : merged? conditions before with
  | none =>
      obtain ⟨other, hperform⟩ := perform_load_of_none hmerged
      exact .inl (by rw [Step.after, act, hperform])
  | some checkpoint =>
      have hperform := perform_load_of_some hmerged
      cases hfault : conditions.fault .dropCheckpoint with
      | none =>
          rw [hperform, hfault] at hanswer
          cases hanswer
      | some other =>
          rw [hfault] at hperform
          rw [hperform] at hanswer
          obtain rfl := Except.error.inj hanswer
          exact .inr ⟨rfl, checkpoint, hmerged, by rw [Step.after, act, hperform]⟩

/-- A checkpoint is merged more than once only if it could not be dropped. -/
theorem merging_steps (store : Store) (defaultTtl : Nat) (schedule : Schedule Turn) :
    Merging (schedule.steps act (.started store defaultTtl)) where
  once _ _ _ _ _ h := once_of_steps_eq rfl h
  failed _ _ _ := failed_of_reply
  again _ _ _ _ _ h _ _ hmerging hfault hbetween _ :=
    again_of_steps_eq rfl h hmerging hfault hbetween

/-! ## A checkpoint that is merged twice -/

def lasting : Message :=
  ⟨"m", "x", "1970-01-01 00:00:00", "2999-01-01 00:00:00"⟩

/-- The store of a broker that has saved one message. -/
def oneSaved : Store :=
  Store.empty.saveCheckpoint [⟨"row0", "t", lasting⟩] []

/-- Storage works but for dropping the checkpoint. -/
def undroppable : Conditions where
  now := (Conditions.calm "row").now
  fault
    | .dropCheckpoint => some (.internal "storage is unavailable")
    | _ => none
  fresh := (Conditions.calm "row").fresh

/-- A message is saved, and the next lifetime cannot drop what it has loaded. -/
def droplessLoad : Schedule Turn :=
  [(.calm "row", .command (.enqueue "t" lasting)), (.calm "row", .command .flush),
    (.calm "row", .restart), (undroppable, .command .load), (.calm "row", .restart),
    (.calm "row", .command .load)]

theorem exists_oneSaved :
    ∃ checkpoint, oneSaved.checkpoint = .ok checkpoint ∧ checkpoint.isEmpty = false := by
  have hone : [(⟨"row0", "t", lasting⟩ : Store.QueuedMessage)].length ≤ 10 ^ 20 := by decide
  have hnone : ([] : List Store.QueuedMessage).length ≤ 10 ^ 20 := by decide
  obtain ⟨checkpoint, hcheckpoint, hsaved⟩ := Store.checkpoint_saveCheckpoint hone hnone .empty
  refine ⟨checkpoint, hcheckpoint, ?_⟩
  have hlive : checkpoint.liveOf "t" = [lasting] := hsaved.live "t"
  cases hrows : checkpoint.live.rows with
  | nil => simp [Checkpoint.liveOf, Table.find?, hrows] at hlive
  | cons row rows => simp [Checkpoint.isEmpty, hrows]

/-- A new engine finds what the one before it could not drop as that one found it. -/
theorem after_restart_of_undropped {before : Broker} (hwait : before.engine.mailbox = [])
    {conditions later : Conditions} {checkpoint : Checkpoint} {error : BrokerError}
    (hmerged : merged? conditions before = some checkpoint)
    (hfault : conditions.fault .dropCheckpoint = some error) :
    Step.after act ⟨Step.after act ⟨before, conditions, .command .load⟩, later, .restart⟩ =
      { before with engine := .fresh } := by
  have hspec : Spec ⟨before, conditions, .command .load⟩ := turn_spec hwait
  have hloaded := hspec.undropped checkpoint error hmerged hfault
  have hmailbox := hspec.mailbox
  rw [hloaded] at hmailbox ⊢
  exact congrArg Prod.snd (perform_restart hmailbox)

theorem not_mergedOnce_droplessLoad :
    ¬ MergedOnce (droplessLoad.steps act (.started .empty 60)) := by
  intro honce
  obtain ⟨checkpoint, hcheckpoint, hmessages⟩ := exists_oneSaved
  let start : Broker := .started oneSaved 60
  have hmerged {conditions : Conditions} (hfetch : conditions.fault .fetchCheckpoint = none) :
      merged? conditions start = some checkpoint := by
    simp [merged?, start, Broker.started, Engine.fresh, Storage.fetchCheckpoint, hfetch,
      hcheckpoint, Except.toOption]
  let loaded : Broker := Step.after act ⟨start, undroppable, .command .load⟩
  have hrestarted : Step.after act ⟨loaded, .calm "row", .restart⟩ = start :=
    after_restart_of_undropped rfl (hmerged rfl) rfl
  have hsteps : droplessLoad.steps act (.started .empty 60) =
      Schedule.steps act (droplessLoad.take 3) (.started .empty 60) ++
        ⟨start, undroppable, .command .load⟩ :: [⟨loaded, .calm "row", .restart⟩] ++
          ⟨start, .calm "row", .command .load⟩ :: [] := by
    have htail : droplessLoad.steps act (.started .empty 60) =
        Schedule.steps act (droplessLoad.take 3) (.started .empty 60) ++
          ⟨start, undroppable, .command .load⟩ :: [⟨loaded, .calm "row", .restart⟩] ++
            ⟨Step.after act ⟨loaded, .calm "row", .restart⟩, .calm "row", .command .load⟩ :: [] :=
      rfl
    rw [htail, hrestarted]
  obtain ⟨step, hstep, hsaves⟩ := honce _ _ _ _ _ hsteps ⟨checkpoint, hmerged rfl, hmessages⟩
    ⟨checkpoint, hmerged rfl, hmessages⟩
  obtain rfl := List.mem_singleton.mp hstep
  cases hsaves.1

end Turn

end TopicBroker.Engine
