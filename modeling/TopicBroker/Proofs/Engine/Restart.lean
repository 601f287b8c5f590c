import Mathlib.Data.List.Chain
import Mathlib.Data.List.Forall2
import TopicBroker.Proofs.Engine.Fate
import TopicBroker.Proofs.Store.Checkpoint

/-! # Restarts

An engine that flushes its queues, is started anew and loads them again goes on as if nothing had
happened. The two engines need not hold the same tables, since topics without messages are not in a
checkpoint: they hold the same queue for every topic. -/

namespace TopicBroker

namespace Queues

/-- A machine word counts the messages. -/
def Countable (queues : Queues) : Prop :=
  queues.liveCount < 2 ^ 64 ∧ queues.deadCount < 2 ^ 64

instance : DecidablePred Countable :=
  fun _ => inferInstanceAs (Decidable (_ ∧ _))

theorem topic_of_mem {queues : Queues} {topicId : String} {queue : TopicQueue}
    (h : (topicId, queue) ∈ queues.rows) : queues.topic topicId = queue := by
  rw [topic, (Table.mem_rows_iff _ _ _).mp h, Option.getD_some]

/-- The counts of a topic with messages are those of its queue. -/
theorem mem_stats_iff {queues : Queues} {topicId : String} {counts : QueueStats}
    (h : counts ≠ ⟨0, 0⟩) :
    (topicId, counts) ∈ queues.stats ↔ (queues.topic topicId).stats = counts := by
  constructor
  · intro hmem
    obtain ⟨⟨other, queue⟩, hrow, heq⟩ := List.mem_map.mp hmem
    obtain ⟨rfl, rfl⟩ := Prod.mk.inj heq
    rw [topic_of_mem hrow]
  · intro hcounts
    cases hfind : queues.find? topicId with
    | none =>
        rw [topic, hfind] at hcounts
        exact absurd hcounts.symm h
    | some queue =>
        have hrow := (Table.mem_rows_iff _ _ _).mpr hfind
        rw [topic_of_mem hrow] at hcounts
        exact List.mem_map.mpr ⟨_, hrow, by rw [← hcounts]⟩

end Queues

namespace Engine

/-! ## Lifetimes -/

/-- A lifetime of the engine: it loads the checkpoint, carries commands out, and flushes. -/
structure Lifetime where
  opening : Conditions
  commands : Schedule Command
  closing : Conditions

namespace Lifetime

/-- The commands of a lifetime and the flush that ends it. -/
def body (life : Lifetime) : Schedule Command :=
  life.commands ++ [(life.closing, .flush)]

/-- All that the engine carries out in a lifetime. -/
def schedule (life : Lifetime) : Schedule Command :=
  (life.opening, .load) :: life.body

/-- The broker after a lifetime, with its engine started anew. -/
def next (life : Lifetime) (broker : Broker) : Broker :=
  (restart.perform life.closing (life.schedule.final handle broker)).2

/-- The steps of lifetimes one after the other. -/
def steps : List Lifetime → Broker → List (Step Command)
  | [], _ => []
  | life :: lives, broker => life.schedule.steps handle broker ++ steps lives (life.next broker)

/-- The commands of lifetimes, with one load in front, for an engine that is never started anew. -/
def unbroken (opening : Conditions) (lives : List Lifetime) : Schedule Command :=
  (opening, .load) :: lives.flatMap body

/-- Storage works throughout the lifetime, and the engine loads at its beginning only. -/
structure Works (life : Lifetime) : Prop where
  opening : life.opening.Faultless
  commands : ∀ entry ∈ life.commands, entry.1.Faultless ∧ entry.2 ≠ .load
  closing : life.closing.Faultless

theorem Works.body {life : Lifetime} (h : life.Works) :
    ∀ entry ∈ life.body, entry.1.Faultless ∧ entry.2 ≠ .load := by
  intro entry hentry
  rcases List.mem_append.mp hentry with hentry | hentry
  · exact h.commands entry hentry
  · rw [List.mem_singleton.mp hentry]
    exact ⟨h.closing, nofun⟩

end Lifetime

/-! ## Engines with the same queues -/

/-- An answer of an engine with its command. -/
abbrev Reply := (command : Command) × Except BrokerError command.Reply

/-- The answers are the same, except that counts need only agree for topics with messages. -/
def Alike (reply other : Reply) : Prop :=
  match reply, other with
  | ⟨.stats, .ok entries⟩, ⟨.stats, .ok others⟩ =>
    ∀ topicId counts, counts ≠ ⟨0, 0⟩ → ((topicId, counts) ∈ entries ↔ (topicId, counts) ∈ others)
  | _, _ => reply = other

/-- The two brokers hold the same messages for every topic. -/
def SameQueues (broker other : Broker) : Prop :=
  ∀ topicId, broker.queue topicId = other.queue topicId

theorem sameQueues_enqueue {broker other : Broker} (h : SameQueues broker other)
    (conditions : Conditions) (topicId : String) (message : Message) :
    Alike (Step.reply handle ⟨broker, conditions, .enqueue topicId message⟩)
        (Step.reply handle ⟨other, conditions, .enqueue topicId message⟩) ∧
      SameQueues (Step.after handle ⟨broker, conditions, .enqueue topicId message⟩)
        (Step.after handle ⟨other, conditions, .enqueue topicId message⟩) := by
  by_cases haccepts : Accepts topicId message
  · have hperform := perform_enqueue_of_accepts (h := haccepts) conditions
    refine ⟨by simp [Alike, Step.reply, hperform], ?_⟩
    intro topic
    have hleft := Queues.topic_enqueue topicId topic message broker.engine.queues
    have hright := Queues.topic_enqueue topicId topic message other.engine.queues
    have htopicId := h topicId
    have htopic := h topic
    simp only [Broker.queue] at htopicId htopic
    simp [Step.after, hperform, Broker.queue, mapQueues, hleft, hright, htopicId, htopic]
  · obtain ⟨detail, hperform⟩ := perform_enqueue_of_not_accepts haccepts
    exact ⟨by simp [Alike, Step.reply, hperform], by simpa [Step.after, hperform] using h⟩

theorem sameQueues_retrieve {broker other : Broker} (h : SameQueues broker other)
    (conditions : Conditions) (topicId : String) :
    Alike (Step.reply handle ⟨broker, conditions, .retrieve topicId⟩)
        (Step.reply handle ⟨other, conditions, .retrieve topicId⟩) ∧
      SameQueues (Step.after handle ⟨broker, conditions, .retrieve topicId⟩)
        (Step.after handle ⟨other, conditions, .retrieve topicId⟩) := by
  have hleft := Queues.retrieve_fst topicId conditions.now broker.engine.queues
  have hright := Queues.retrieve_fst topicId conditions.now other.engine.queues
  have htopicId := h topicId
  simp only [Broker.queue] at htopicId
  refine ⟨?_, ?_⟩
  · simp [Alike, Step.reply, perform_retrieve conditions broker topicId,
      perform_retrieve conditions other topicId, hleft, hright, htopicId]
  · intro topic
    rw [queue_after_retrieve, queue_after_retrieve, h topicId, h topic]

/-- Engines with the same queues answer alike, and have the same queues afterwards. -/
theorem step_sameQueues {broker other : Broker} (h : SameQueues broker other)
    {conditions : Conditions} (hworks : conditions.Faultless) {command : Command}
    (hload : command ≠ .load) :
    Alike (Step.reply handle ⟨broker, conditions, command⟩)
        (Step.reply handle ⟨other, conditions, command⟩) ∧
      SameQueues (Step.after handle ⟨broker, conditions, command⟩)
        (Step.after handle ⟨other, conditions, command⟩) := by
  cases command with
  | enqueue topicId message => exact sameQueues_enqueue h conditions topicId message
  | retrieve topicId => exact sameQueues_retrieve h conditions topicId
  | load => exact absurd rfl hload
  | flush =>
      have hsave := hworks .saveCheckpoint
      refine ⟨?_, ?_⟩
      · simp [Alike, Step.reply, perform_flush conditions broker, perform_flush conditions other,
          hsave]
      · simpa [SameQueues, Broker.queue, Step.after, perform_flush conditions broker,
          perform_flush conditions other, hsave] using h
  | stats =>
      have hleft := perform_stats conditions broker
      have hright := perform_stats conditions other
      refine ⟨?_, by simpa [Step.after, hleft, hright] using h⟩
      simp only [Alike, Step.reply, hleft, hright]
      intro topicId counts hcounts
      have htopicId := h topicId
      simp only [Broker.queue] at htopicId
      rw [Queues.mem_stats_iff hcounts, Queues.mem_stats_iff hcounts, htopicId]
  | deadLetters topicId =>
      have htopicId := h topicId
      simp only [Broker.queue] at htopicId
      have hleft := perform_deadLetters conditions broker topicId
      have hright := perform_deadLetters conditions other topicId
      refine ⟨?_, by simpa [Step.after, hleft, hright] using h⟩
      simp [Alike, Step.reply, hleft, hright, Queues.deadLetters_eq, htopicId]

/-- The answers to all commands but loads. -/
def replies (steps : List (Step Command)) : List Reply :=
  (steps.filter (·.event ≠ .load)).map (Step.reply handle)

theorem replies_append (steps others : List (Step Command)) :
    replies (steps ++ others) = replies steps ++ replies others := by
  simp [replies]

theorem replies_load (before : Broker) (conditions : Conditions) (steps : List (Step Command)) :
    replies (⟨before, conditions, .load⟩ :: steps) = replies steps := by
  simp [replies]

theorem schedule_sameQueues {schedule : Schedule Command}
    (hworks : ∀ entry ∈ schedule, entry.1.Faultless ∧ entry.2 ≠ .load) {broker other : Broker}
    (h : SameQueues broker other) :
    List.Forall₂ Alike (replies (schedule.steps handle broker))
        (replies (schedule.steps handle other)) ∧
      SameQueues (schedule.final handle broker) (schedule.final handle other) := by
  induction schedule generalizing broker other with
  | nil => exact ⟨.nil, h⟩
  | cons entry schedule ih =>
      obtain ⟨conditions, command⟩ := entry
      obtain ⟨hfaultless, hload⟩ := hworks (conditions, command) List.mem_cons_self
      obtain ⟨hreply, hafter⟩ := step_sameQueues h hfaultless hload
      obtain ⟨hreplies, hfinal⟩ := ih (fun e he => hworks e (List.mem_cons_of_mem _ he)) hafter
      refine ⟨?_, hfinal⟩
      simpa [replies, Schedule.steps, hload] using List.Forall₂.cons hreply hreplies

/-! ## From one lifetime to the next -/

/-- The engine has just started on a checkpoint that holds the given queues. -/
structure Resumes (broker : Broker) (queue : String → TopicQueue) (liveCount : Nat) : Prop where
  fresh : broker.engine = .fresh
  stored : ∃ checkpoint, broker.store.checkpoint = .ok checkpoint ∧
    (∀ topicId, (⟨checkpoint.liveOf topicId, checkpoint.deadOf topicId⟩ : TopicQueue) =
      queue topicId) ∧
    checkpoint.live.values.flatten.length = liveCount

/-- Loading brings the queues back, tells how many live messages there are, and leaves no checkpoint
behind. -/
structure LoadSpec (step : Step Command) (queue : String → TopicQueue) (liveCount : Nat) :
    Prop where
  reply : step.reply handle = ⟨.load, .ok liveCount⟩
  queue : ∀ topicId, (step.after handle).queue topicId = queue topicId
  dropped : (step.after handle).store.checkpoint = .ok ⟨.empty, .empty⟩

theorem Resumes.load {broker : Broker} {queue : String → TopicQueue} {liveCount : Nat}
    (h : Resumes broker queue liveCount) {conditions : Conditions} (hworks : conditions.Faultless) :
    LoadSpec ⟨broker, conditions, .load⟩ queue liveCount := by
  obtain ⟨checkpoint, hcheckpoint, hqueue, hcount⟩ := h.stored
  have hunloaded : broker.engine.loaded = false := by rw [h.fresh, Engine.fresh]
  have hmerged := merged?_eq_some_iff.mpr ⟨hunloaded, hworks .fetchCheckpoint, hcheckpoint⟩
  have hperform := perform_load_of_some hmerged
  simp only [hworks .dropCheckpoint, hcount] at hperform
  refine ⟨?_, ?_, ?_⟩
  · simp [Step.reply, hperform]
  · intro topicId
    rw [← hqueue topicId]
    simp [Step.after, hperform, Broker.queue, mergeCheckpoint, h.fresh, Engine.fresh,
      TopicQueue.empty]
  · rw [Step.after, hperform]
    exact Store.checkpoint_dropCheckpoint _

theorem mailbox_final (schedule : Schedule Command) (broker : Broker) :
    (schedule.final handle broker).engine.mailbox = broker.engine.mailbox := by
  induction schedule generalizing broker with
  | nil => rfl
  | cons entry schedule ih =>
      rw [Schedule.final, ih]
      exact mailbox_perform_handle entry.2

/-- The broker that a lifetime flushes. -/
def Lifetime.flushed (life : Lifetime) (broker : Broker) : Broker :=
  Schedule.final handle ((life.opening, .load) :: life.commands) broker

theorem Lifetime.schedule_eq (life : Lifetime) :
    life.schedule = ((life.opening, .load) :: life.commands) ++ [(life.closing, .flush)] :=
  rfl

theorem Lifetime.steps_schedule (life : Lifetime) (broker : Broker) :
    life.schedule.steps handle broker =
      Schedule.steps handle ((life.opening, .load) :: life.commands) broker ++
        [⟨life.flushed broker, life.closing, .flush⟩] := by
  rw [schedule_eq, Schedule.steps_append]
  rfl

/-- What a lifetime flushes is what the next one resumes. -/
theorem Lifetime.resumes_next {life : Lifetime} (hworks : life.Works) {broker : Broker}
    (hmailbox : broker.engine.mailbox = [])
    (hcountable : (life.flushed broker).engine.queues.Countable) :
    Resumes (life.next broker) (life.schedule.final handle broker).queue
      (life.flushed broker).engine.queues.liveCount := by
  have hfinal : (life.schedule.final handle broker).engine.mailbox = [] := by
    rw [mailbox_final, hmailbox]
  have hflush : life.schedule.final handle broker =
      { life.flushed broker with
        store := (life.flushed broker).store.saveCheckpoint
          ((life.flushed broker).engine.queues.liveRows life.closing.fresh)
          ((life.flushed broker).engine.queues.deadRows life.closing.fresh) } := by
    rw [schedule_eq, Schedule.final_append]
    change Step.after handle ⟨life.flushed broker, life.closing, .flush⟩ = _
    rw [Step.after, perform_flush, hworks.closing .saveCheckpoint]
  have hlive := Queues.length_liveRows life.closing.fresh (life.flushed broker).engine.queues
  have hdead := Queues.length_deadRows life.closing.fresh (life.flushed broker).engine.queues
  obtain ⟨hlivePlaces, hdeadPlaces⟩ := hcountable
  obtain ⟨checkpoint, hcheckpoint, hsaved⟩ := Store.checkpoint_saveCheckpoint
    (by rw [hlive]; omega) (by rw [hdead]; omega) (life.flushed broker).store
  rw [next, perform_restart hfinal, hflush]
  refine ⟨rfl, checkpoint, hcheckpoint, ?_, ?_⟩
  · intro topicId
    rw [hsaved.live, hsaved.dead, Queues.liveRows, Queues.deadRows,
      Queues.messagesOf_rowsFrom _ _ rfl, Queues.messagesOf_rowsFrom _ _ rfl]
    rfl
  · rw [hsaved.count, hlive]

/-! ## Histories -/

/-- A load comes right after a flush, and tells how many live messages there were at the flush. -/
def LoadsFlushed (step next : Step Command) : Prop :=
  next.event = .load → step.event = .flush ∧
    next.reply handle = ⟨.load, .ok step.before.engine.queues.liveCount⟩

/-- What an engine that is started anew over and over has in common with one that is not. -/
structure Invisible (liveCount : Nat) (restarted unbroken : List (Step Command)) : Prop where
  alike : List.Forall₂ Alike (replies restarted) (replies unbroken)
  first : ∀ step ∈ restarted.head?, step.reply handle = ⟨.load, .ok liveCount⟩
  loads : restarted.IsChain LoadsFlushed
  dropped : ∀ step ∈ restarted, step.event = .load →
    (step.after handle).store.checkpoint = .ok ⟨.empty, .empty⟩

theorem isChain_schedule {life : Lifetime} (hworks : life.Works) (broker : Broker) :
    (life.schedule.steps handle broker).IsChain LoadsFlushed := by
  have hbody : ∀ step ∈ life.body.steps handle (Step.after handle ⟨broker, life.opening, .load⟩),
      step.event ≠ .load :=
    fun step hstep => (hworks.body _ (Schedule.entry_of_mem_steps handle hstep)).2
  refine List.isChain_cons.mpr ⟨?_, List.Pairwise.isChain ?_⟩
  · intro step hstep hload
    exact absurd hload (hbody step (List.mem_of_mem_head? hstep))
  · refine List.Pairwise.imp_of_mem (fun _ hstep _ hload => absurd hload (hbody _ hstep))
      (List.pairwise_of_forall (R := fun _ _ => True) fun _ _ => trivial)

theorem Invisible.cons {life : Lifetime} (hworks : life.Works) {broker other : Broker}
    {liveCount : Nat} (hresumes : Resumes broker other.queue liveCount)
    {later : List (Step Command)} {rest : Schedule Command}
    (h : Invisible (life.flushed broker).engine.queues.liveCount later
      (rest.steps handle (life.body.final handle other))) :
    Invisible liveCount (life.schedule.steps handle broker ++ later)
      ((life.body ++ rest).steps handle other) := by
  have hload := hresumes.load hworks.opening
  have hbody := (schedule_sameQueues hworks.body hload.queue).1
  refine ⟨?_, ?_, ?_, ?_⟩
  · rw [Schedule.steps_append, replies_append, replies_append]
    refine List.rel_append ?_ h.alike
    rw [Lifetime.schedule, Schedule.steps, replies_load]
    exact hbody
  · intro step hstep
    obtain rfl : ⟨broker, life.opening, .load⟩ = step := by
      simpa [Lifetime.schedule, Schedule.steps] using hstep
    exact hload.reply
  · refine (isChain_schedule hworks broker).append h.loads ?_
    intro flush hflush load hhead _
    obtain rfl : ⟨life.flushed broker, life.closing, .flush⟩ = flush := by
      simpa [Lifetime.steps_schedule] using hflush
    exact ⟨rfl, h.first load hhead⟩
  · intro step hstep hevent
    rcases List.mem_append.mp hstep with hstep | hstep
    · rcases List.mem_cons.mp hstep with rfl | hstep
      · exact hload.dropped
      · exact absurd hevent (hworks.body _ (Schedule.entry_of_mem_steps handle hstep)).2
    · exact h.dropped step hstep hevent

theorem invisible_of_resumes (lives : List Lifetime) (hworks : ∀ life ∈ lives, life.Works)
    {broker other : Broker} {liveCount : Nat} (hresumes : Resumes broker other.queue liveCount)
    (hcountable : ∀ step ∈ Lifetime.steps lives broker, step.event = .flush →
      step.before.engine.queues.Countable) :
    Invisible liveCount (Lifetime.steps lives broker)
      (Schedule.steps handle (lives.flatMap Lifetime.body) other) := by
  induction lives generalizing broker other liveCount with
  | nil => exact ⟨.nil, by simp [Lifetime.steps], .nil, by simp [Lifetime.steps]⟩
  | cons life lives ih =>
      have hlife := hworks life List.mem_cons_self
      have hlives := fun l hl => hworks l (List.mem_cons_of_mem _ hl)
      have hload := hresumes.load hlife.opening
      have hsame := (schedule_sameQueues hlife.body hload.queue).2
      have hmailbox : broker.engine.mailbox = [] := by rw [hresumes.fresh]; rfl
      have hflushed : (life.flushed broker).engine.queues.Countable := by
        refine hcountable ⟨life.flushed broker, life.closing, .flush⟩ ?_ rfl
        simp [Lifetime.steps, Lifetime.steps_schedule]
      have hnext := Lifetime.resumes_next hlife hmailbox hflushed
      have hresumes' : Resumes (life.next broker) (life.body.final handle other).queue
          (life.flushed broker).engine.queues.liveCount := by
        obtain ⟨hfresh, checkpoint, hcheckpoint, hqueue, hcount⟩ := hnext
        exact ⟨hfresh, checkpoint, hcheckpoint, fun t => (hqueue t).trans (hsame t), hcount⟩
      refine Invisible.cons hlife hresumes (ih hlives hresumes' ?_)
      intro step hstep
      exact hcountable step (List.mem_append_right _ hstep)

/-- Restarts are invisible: over any number of lifetimes every command but a load is answered as by
an engine that loads the checkpoint once and is never started anew. -/
theorem restarts_invisible (store : Store) (defaultTtl : Nat) (opening : Conditions)
    (lives : List Lifetime) {checkpoint : Checkpoint}
    (hcheckpoint : store.checkpoint = .ok checkpoint) (hopening : opening.Faultless)
    (hworks : ∀ life ∈ lives, life.Works)
    (hcountable : ∀ step ∈ Lifetime.steps lives (.started store defaultTtl), step.event = .flush →
      step.before.engine.queues.Countable) :
    Invisible checkpoint.live.values.flatten.length
      (Lifetime.steps lives (.started store defaultTtl))
      ((Lifetime.unbroken opening lives).steps handle (.started store defaultTtl)) := by
  have hstarted : Resumes (.started store defaultTtl)
      (fun topicId => ⟨checkpoint.liveOf topicId, checkpoint.deadOf topicId⟩)
      checkpoint.live.values.flatten.length :=
    ⟨rfl, checkpoint, hcheckpoint, fun _ => rfl, rfl⟩
  have hload := hstarted.load hopening
  have hresumes : Resumes (.started store defaultTtl)
      (Step.after handle ⟨.started store defaultTtl, opening, .load⟩).queue
      checkpoint.live.values.flatten.length :=
    ⟨rfl, checkpoint, hcheckpoint, fun topicId => (hload.queue topicId).symm, rfl⟩
  have hrun := invisible_of_resumes lives hworks hresumes hcountable
  refine ⟨?_, hrun.first, hrun.loads, hrun.dropped⟩
  rw [Lifetime.unbroken, Schedule.steps, replies_load]
  exact hrun.alike

/-- A message is put in line in one lifetime and taken in the next. -/
def twoLives : List Lifetime :=
  [⟨.calm "a", [(.calm "a", .enqueue "t" ⟨"m", "x", "", "2000-01-01 00:00:00"⟩)], .calm "a"⟩,
    ⟨.calm "b", [(.calm "b", .stats), (.calm "b", .retrieve "t")], .calm "b"⟩]

theorem restarts_invisible_twoLives :
    Invisible 0 (Lifetime.steps twoLives (.started .empty 60))
      ((Lifetime.unbroken (.calm "a") twoLives).steps handle (.started .empty 60)) := by
  refine restarts_invisible .empty 60 (.calm "a") twoLives rfl (fun _ => rfl) ?_ (by decide +kernel)
  intro life hlife
  simp only [twoLives, List.mem_cons, List.not_mem_nil, or_false] at hlife
  rcases hlife with rfl | rfl
  · exact ⟨fun _ => rfl, by simp [Conditions.calm, Conditions.Faultless], fun _ => rfl⟩
  · exact ⟨fun _ => rfl, by simp [Conditions.calm, Conditions.Faultless], fun _ => rfl⟩

end Engine

end TopicBroker
