import Mathlib.Data.Set.Insert
import TopicBroker.Proofs.Engine.Commands
import TopicBroker.Proofs.Queues
import TopicBroker.Proofs.Run
import TopicBroker.Proofs.Store.Checkpoint

/-! # Topics do not interfere

A command on a topic reads and changes the row of this topic and nothing else. So when commands on
some topics and commands on others are mixed, each is answered as if only those of its own kind were
carried out, and every way of mixing them leaves the same queues behind. -/

namespace TopicBroker

/-- A list that is made of two, the elements of each in their order. -/
inductive Interleaves {α : Type} : List α → List α → List α → Prop where
  | nil : Interleaves [] [] []
  | left {a : α} {first second merged : List α} :
    Interleaves first second merged → Interleaves (a :: first) second (a :: merged)
  | right {a : α} {first second merged : List α} :
    Interleaves first second merged → Interleaves first (a :: second) (a :: merged)

theorem Interleaves.mem_iff {α : Type} {first second merged : List α}
    (h : Interleaves first second merged) {a : α} : a ∈ merged ↔ a ∈ first ∨ a ∈ second := by
  induction h with
  | nil => simp
  | left _ ih => simp [ih, or_assoc]
  | right _ ih => simp [ih, or_left_comm]

/-- The topic that a command is on. A load, a flush or a count is on no topic in particular. -/
def Command.topicId? : Command → Option String
  | .enqueue topicId _ => some topicId
  | .retrieve topicId => some topicId
  | .deadLetters topicId => some topicId
  | .load => none
  | .flush => none
  | .stats => none

namespace Engine

/-! ## Commands on a topic -/

/-- The row of a topic in the queues. -/
def row? (broker : Broker) (topicId : String) : Option TopicQueue :=
  broker.engine.queues.find? topicId

/-- What a command can see and do that is on a topic: it changes no row but that of its topic, and
what it answers and leaves there depends on no other row. -/
structure Confined (topicId : String) (conditions : Conditions) (command : Command) : Prop where
  frame : ∀ broker other, other ≠ topicId →
    row? (Step.after handle ⟨broker, conditions, command⟩) other = row? broker other
  outside : ∀ broker, ∃ queues,
    Step.after handle ⟨broker, conditions, command⟩ = mapQueues (fun _ => queues) broker
  reply : ∀ broker other, row? broker topicId = row? other topicId →
    Step.reply handle ⟨broker, conditions, command⟩ =
      Step.reply handle ⟨other, conditions, command⟩
  row : ∀ broker other, row? broker topicId = row? other topicId →
    row? (Step.after handle ⟨broker, conditions, command⟩) topicId =
      row? (Step.after handle ⟨other, conditions, command⟩) topicId

theorem confined_enqueue (topicId : String) (message : Message) (conditions : Conditions) :
    Confined topicId conditions (.enqueue topicId message) := by
  by_cases haccepts : Accepts topicId message
  · have hperform := perform_enqueue_of_accepts (h := haccepts) conditions
    have hrow (broker : Broker) (other : String) :
        row? (Step.after handle ⟨broker, conditions, .enqueue topicId message⟩) other =
          if other = topicId then
            some { (row? broker topicId).getD .empty with
              live := ((row? broker topicId).getD .empty).live ++ [message] }
          else row? broker other := by
      simp only [Step.after, hperform]
      exact Table.find?_alter _ _ _ _ _
    refine ⟨?_, ?_, ?_, ?_⟩
    · intro broker other hother
      rw [hrow, if_neg hother]
    · intro broker
      exact ⟨_, by rw [Step.after, hperform]; rfl⟩
    · intro broker other _
      simp only [Step.reply, hperform]
    · intro broker other h
      rw [hrow, hrow, h]
  · obtain ⟨detail, hperform⟩ := perform_enqueue_of_not_accepts haccepts
    refine ⟨?_, ?_, ?_, ?_⟩
    · intro broker other _
      rw [Step.after, hperform]
    · intro broker
      exact ⟨broker.engine.queues, by rw [Step.after, hperform]; rfl⟩
    · intro broker other _
      simp only [Step.reply, hperform]
    · intro broker other h
      rw [Step.after, Step.after, hperform, hperform, h]

theorem confined_retrieve (topicId : String) (conditions : Conditions) :
    Confined topicId conditions (.retrieve topicId) := by
  have hrow (broker : Broker) (other : String) :
      row? (Step.after handle ⟨broker, conditions, .retrieve topicId⟩) other =
        if other = topicId then
          (row? broker topicId).map fun queue => (queue.take conditions.now).2
        else row? broker other := by
    rw [Step.after, perform_retrieve]
    exact Queues.find?_retrieve topicId other conditions.now broker.engine.queues
  refine ⟨?_, ?_, ?_, ?_⟩
  · intro broker other hother
    rw [hrow, if_neg hother]
  · intro broker
    exact ⟨_, by rw [Step.after, perform_retrieve]; rfl⟩
  · intro broker other h
    have htopic : broker.engine.queues.topic topicId = other.engine.queues.topic topicId :=
      congrArg (·.getD .empty) h
    rw [Step.reply, Step.reply, perform_retrieve, perform_retrieve, Queues.retrieve_fst,
      Queues.retrieve_fst, htopic]
  · intro broker other h
    rw [hrow, hrow, h]

theorem confined_deadLetters (topicId : String) (conditions : Conditions) :
    Confined topicId conditions (.deadLetters topicId) := by
  have hafter (broker : Broker) :
      Step.after handle ⟨broker, conditions, .deadLetters topicId⟩ = broker := by
    rw [Step.after, perform_deadLetters]
  refine ⟨?_, ?_, ?_, ?_⟩
  · intro broker other _
    rw [hafter]
  · intro broker
    exact ⟨broker.engine.queues, by rw [hafter]; rfl⟩
  · intro broker other h
    have htopic : broker.engine.queues.topic topicId = other.engine.queues.topic topicId :=
      congrArg (·.getD .empty) h
    rw [Step.reply, Step.reply, perform_deadLetters, perform_deadLetters, Queues.deadLetters_eq,
      Queues.deadLetters_eq, htopic]
  · intro broker other h
    rw [hafter, hafter, h]

theorem confined_of_topicId? {command : Command} {topicId : String}
    (h : command.topicId? = some topicId) (conditions : Conditions) :
    Confined topicId conditions command := by
  cases command with
  | enqueue other message =>
      obtain rfl := Option.some.inj h
      exact confined_enqueue other message conditions
  | retrieve other =>
      obtain rfl := Option.some.inj h
      exact confined_retrieve other conditions
  | deadLetters other =>
      obtain rfl := Option.some.inj h
      exact confined_deadLetters other conditions
  | load | flush | stats => cases h

/-! ## Brokers that agree on some topics -/

/-- The two brokers have the same rows for the topics. -/
def AgreeOn (topics : Set String) (broker other : Broker) : Prop :=
  ∀ topicId ∈ topics, row? broker topicId = row? other topicId

/-- All commands of a schedule are on some of the topics. -/
def OnTopics (topics : Set String) (schedule : Schedule Command) : Prop :=
  ∀ entry ∈ schedule, ∃ topicId ∈ topics, entry.2.topicId? = some topicId

variable {topics others : Set String} {broker one two : Broker}

/-- A command on one of the topics leaves brokers that agree on them in agreement. -/
theorem AgreeOn.after_both (h : AgreeOn topics broker one) {command : Command} {topicId : String}
    (htopic : command.topicId? = some topicId) (conditions : Conditions) :
    AgreeOn topics (Step.after handle ⟨broker, conditions, command⟩)
      (Step.after handle ⟨one, conditions, command⟩) := by
  have hconfined := confined_of_topicId? htopic conditions
  intro other hother
  by_cases heq : other = topicId
  · subst heq
    exact hconfined.row broker one (h other hother)
  · rw [hconfined.frame broker other heq, hconfined.frame one other heq, h other hother]

/-- A command on another topic changes nothing for these. -/
theorem AgreeOn.after_left (h : AgreeOn topics broker one) {command : Command} {topicId : String}
    (htopic : command.topicId? = some topicId) (hnot : topicId ∉ topics) (conditions : Conditions) :
    AgreeOn topics (Step.after handle ⟨broker, conditions, command⟩) one := by
  intro other hother
  have hne : other ≠ topicId := fun heq => hnot (heq ▸ hother)
  rw [(confined_of_topicId? htopic conditions).frame broker other hne, h other hother]

theorem OnTopics.of_cons {entry : Conditions × Command} {schedule : Schedule Command}
    (h : OnTopics topics (entry :: schedule)) :
    (∃ topicId ∈ topics, entry.2.topicId? = some topicId) ∧ OnTopics topics schedule :=
  List.forall_mem_cons.mp h

/-- The rows of other topics stay as they are, and so does all else. -/
theorem unchanged_final {schedule : Schedule Command} (h : OnTopics topics schedule)
    (broker : Broker) :
    AgreeOn topicsᶜ (schedule.final handle broker) broker ∧
      ∃ queues, schedule.final handle broker = mapQueues (fun _ => queues) broker := by
  induction schedule generalizing broker with
  | nil => exact ⟨fun _ _ => rfl, broker.engine.queues, rfl⟩
  | cons entry schedule ih =>
      obtain ⟨⟨topicId, hmem, htopic⟩, hrest⟩ := h.of_cons
      have hconfined := confined_of_topicId? htopic entry.1
      obtain ⟨hrows, queues, hqueues⟩ := ih hrest (Step.after handle ⟨broker, entry.1, entry.2⟩)
      obtain ⟨next, hnext⟩ := hconfined.outside broker
      refine ⟨?_, queues, ?_⟩
      · intro other hother
        have hne : other ≠ topicId := fun heq => hother (heq ▸ hmem)
        exact (hrows other hother).trans (hconfined.frame broker other hne)
      · rw [Schedule.final, hqueues, hnext]
        rfl

/-! ## Schedules that are mixed -/

/-- What is asked of the engine and what it answers, each time under the given conditions. -/
def transcript (schedule : Schedule Command) (broker : Broker) :
    List (Conditions × (command : Command) × Except BrokerError command.Reply) :=
  (schedule.steps handle broker).map fun step => (step.conditions, step.reply handle)

theorem transcript_cons (entry : Conditions × Command) (schedule : Schedule Command)
    (broker : Broker) :
    transcript (entry :: schedule) broker =
      (entry.1, Step.reply handle ⟨broker, entry.1, entry.2⟩) ::
        transcript schedule (Step.after handle ⟨broker, entry.1, entry.2⟩) :=
  rfl

/-- A broker that carries out both schedules keeps step with one for each of them. -/
theorem interleaves_transcript (hdisjoint : ∀ topicId ∈ topics, topicId ∉ others)
    {first second merged : Schedule Command} (h : Interleaves first second merged)
    (hfirst : OnTopics topics first) (hsecond : OnTopics others second)
    (hone : AgreeOn topics broker one) (htwo : AgreeOn others broker two) :
    Interleaves (transcript first one) (transcript second two) (transcript merged broker) ∧
      AgreeOn topics (merged.final handle broker) (first.final handle one) ∧
      AgreeOn others (merged.final handle broker) (second.final handle two) := by
  induction h generalizing broker one two with
  | nil => exact ⟨.nil, hone, htwo⟩
  | @left entry first second merged _ ih =>
      obtain ⟨⟨topicId, hmem, htopic⟩, hrest⟩ := hfirst.of_cons
      have hreply := (confined_of_topicId? htopic entry.1).reply broker one (hone topicId hmem)
      have hnot := hdisjoint topicId hmem
      obtain ⟨hreplies, hfinal⟩ := ih hrest hsecond (hone.after_both htopic entry.1)
        (htwo.after_left htopic hnot entry.1)
      refine ⟨?_, hfinal⟩
      rw [transcript_cons, transcript_cons, hreply]
      exact .left hreplies
  | @right entry first second merged _ ih =>
      obtain ⟨⟨topicId, hmem, htopic⟩, hrest⟩ := hsecond.of_cons
      have hreply := (confined_of_topicId? htopic entry.1).reply broker two (htwo topicId hmem)
      have hnot : topicId ∉ topics := fun h => hdisjoint topicId h hmem
      obtain ⟨hreplies, hfinal⟩ := ih hfirst hrest (hone.after_left htopic hnot entry.1)
        (htwo.after_both htopic entry.1)
      refine ⟨?_, hfinal⟩
      rw [transcript_cons, transcript_cons, hreply]
      exact .right hreplies

/-- The run of a mixed schedule next to those of the two schedules that it is made of. -/
structure Separate (topics others : Set String) (first second merged : Schedule Command)
    (broker : Broker) : Prop where
  /-- Every command is answered as if only the commands of its own schedule were carried out. -/
  replies :
    Interleaves (transcript first broker) (transcript second broker) (transcript merged broker)
  first : AgreeOn topics (merged.final handle broker) (first.final handle broker)
  second : AgreeOn others (merged.final handle broker) (second.final handle broker)
  elsewhere : AgreeOn (topics ∪ others)ᶜ (merged.final handle broker) broker

theorem OnTopics.of_interleaves {first second merged : Schedule Command}
    (h : Interleaves first second merged) (hfirst : OnTopics topics first)
    (hsecond : OnTopics others second) : OnTopics (topics ∪ others) merged := by
  intro entry hentry
  rcases h.mem_iff.mp hentry with hentry | hentry
  · obtain ⟨topicId, hmem, htopic⟩ := hfirst entry hentry
    exact ⟨topicId, .inl hmem, htopic⟩
  · obtain ⟨topicId, hmem, htopic⟩ := hsecond entry hentry
    exact ⟨topicId, .inr hmem, htopic⟩

theorem separate_of_interleaves (hdisjoint : ∀ topicId ∈ topics, topicId ∉ others)
    {first second merged : Schedule Command} (hfirst : OnTopics topics first)
    (hsecond : OnTopics others second) (h : Interleaves first second merged) (broker : Broker) :
    Separate topics others first second merged broker := by
  have htopics : AgreeOn topics broker broker := fun _ _ => rfl
  have hothers : AgreeOn others broker broker := fun _ _ => rfl
  obtain ⟨hreplies, hone, htwo⟩ :=
    interleaves_transcript hdisjoint h hfirst hsecond htopics hothers
  exact ⟨hreplies, hone, htwo, (unchanged_final (.of_interleaves h hfirst hsecond) broker).1⟩

/-- The way in which two schedules are mixed cannot be told from the state that is left. -/
theorem final_eq_of_interleaves (hdisjoint : ∀ topicId ∈ topics, topicId ∉ others)
    {first second merged remerged : Schedule Command} (hfirst : OnTopics topics first)
    (hsecond : OnTopics others second) (h : Interleaves first second merged)
    (h' : Interleaves first second remerged) (broker : Broker) :
    merged.final handle broker = remerged.final handle broker := by
  have hleft := separate_of_interleaves hdisjoint hfirst hsecond h broker
  have hright := separate_of_interleaves hdisjoint hfirst hsecond h' broker
  obtain ⟨-, queues, hqueues⟩ := unchanged_final (.of_interleaves h hfirst hsecond) broker
  obtain ⟨-, queues', hqueues'⟩ := unchanged_final (.of_interleaves h' hfirst hsecond) broker
  have hrows : (merged.final handle broker).engine.queues =
      (remerged.final handle broker).engine.queues := by
    refine Table.ext_find? ?_
    intro topicId
    by_cases hmem : topicId ∈ topics
    · exact (hleft.first topicId hmem).trans (hright.first topicId hmem).symm
    · by_cases hmem' : topicId ∈ others
      · exact (hleft.second topicId hmem').trans (hright.second topicId hmem').symm
      · have hnot : topicId ∉ topics ∪ others := not_or.mpr ⟨hmem, hmem'⟩
        exact (hleft.elsewhere topicId hnot).trans (hright.elsewhere topicId hnot).symm
  rw [hqueues, hqueues'] at hrows ⊢
  obtain rfl : queues = queues' := hrows
  rfl

/-- The same messages in the same order, whatever ids their rows have. -/
def SameMessages (rows others : List Store.QueuedMessage) : Prop :=
  (rows.map fun row => (row.topicId, row.message)) =
    others.map fun row => (row.topicId, row.message)

theorem sameMessages_rows (fresh fresh' : Nat → String) (queues : Queues) :
    SameMessages (queues.liveRows fresh) (queues.liveRows fresh') ∧
      SameMessages (queues.deadRows fresh) (queues.deadRows fresh') := by
  simp only [SameMessages, Queues.liveRows, Queues.deadRows, Queues.map_rowsFrom, and_self]

/-- Commands on different topics do not notice each other: however two schedules are mixed, every
command is answered as in its own schedule and every topic comes to have the same queue; and however
they are mixed, the same queues are left, so the same counts and the same checkpoint. -/
theorem topics_separate (hdisjoint : ∀ topicId ∈ topics, topicId ∉ others)
    {first second : Schedule Command} (hfirst : OnTopics topics first)
    (hsecond : OnTopics others second) (broker : Broker) :
    (∀ merged, Interleaves first second merged →
      Separate topics others first second merged broker) ∧
    ∀ merged remerged : Schedule Command,
      Interleaves first second merged → Interleaves first second remerged →
      let queues := (merged.final handle broker).engine.queues
      let queues' := (remerged.final handle broker).engine.queues
      queues = queues' ∧ queues.stats = queues'.stats ∧
        ∀ fresh fresh', SameMessages (queues.liveRows fresh) (queues'.liveRows fresh') ∧
          SameMessages (queues.deadRows fresh) (queues'.deadRows fresh') := by
  refine ⟨fun merged h => separate_of_interleaves hdisjoint hfirst hsecond h broker, ?_⟩
  intro merged remerged h h'
  have hfinal := final_eq_of_interleaves hdisjoint hfirst hsecond h h' broker
  simp only [hfinal, true_and]
  exact fun fresh fresh' => sameMessages_rows fresh fresh' _

/-- News is published and read. -/
def newsDesk : Schedule Command :=
  [(.calm "a", .enqueue "news" ⟨"1", "rain", "", "1999-12-31 23:59:59"⟩),
    (.calm "b", .retrieve "news")]

/-- Sport is published with an expiry that cannot be read, and so is set aside. -/
def sportDesk : Schedule Command :=
  [(.calm "c", .enqueue "sport" ⟨"2", "draw", "", "tomorrow"⟩), (.calm "d", .retrieve "sport"),
    (.calm "e", .deadLetters "sport")]

theorem topics_separate_twoDesks :
    Separate {"news"} {"sport"} newsDesk sportDesk
      [newsDesk[0], sportDesk[0], sportDesk[1], newsDesk[1], sportDesk[2]]
      (.fresh 60) := by
  have hdisjoint : ∀ topicId ∈ ({"news"} : Set String), topicId ∉ ({"sport"} : Set String) := by
    simp
  have hnews : OnTopics {"news"} newsDesk := by simp [OnTopics, newsDesk, Command.topicId?]
  have hsport : OnTopics {"sport"} sportDesk := by simp [OnTopics, sportDesk, Command.topicId?]
  exact (topics_separate hdisjoint hnews hsport (.fresh 60)).1 _
    (.left (.right (.right (.left (.right .nil)))))

end Engine

end TopicBroker
