import TopicBroker.Proofs.Registry.Topics
import TopicBroker.Proofs.Store.Topics

/-! # Names keep their ids

Topics are created one by one or seeded together, among everything else that is done to the broker
and to its storage. As long as ids are new, the tables of names and of ids stay the same thing read
in two directions, and only a name that nobody inserted before makes a difference to them. -/

namespace TopicBroker

open TopicBroker.Action

/-! ## Storage -/

namespace Storage

/-- What may be asked of storage besides the creation of topics. -/
inductive Request where
  | listTopics
  | findTopic (name : String)
  | findPublisher (client : ClientId)
  | insertPublisher (client : ClientId) (topicId : String)
  | updatePublisher (client : ClientId) (topicId : String)
  | clearPublisher (client : ClientId)
  | insertMessage (client : ClientId) (topicId : String) (message : Message)
  | listSubscriptions (client : ClientId)
  | insertSubscriber (client : ClientId)
  | insertSubscription (client : ClientId) (topicId : String)
  | removeSubscription (client : ClientId) (topicId : String)
  | fetchCheckpoint
  | saveCheckpoint (live dead : List Store.QueuedMessage)
  | dropCheckpoint

abbrev Request.Answer : Request → Type
  | listTopics => List String
  | findTopic _ => Option String
  | findPublisher _ => PublisherRecord
  | listSubscriptions _ => List String
  | fetchCheckpoint => Checkpoint
  | _ => Unit

def Request.act : (request : Request) → Action request.Answer
  | listTopics => Storage.listTopics
  | findTopic name => Storage.findTopic name
  | findPublisher client => Storage.findPublisher client
  | insertPublisher client topicId => Storage.insertPublisher client topicId
  | updatePublisher client topicId => Storage.updatePublisher client topicId
  | clearPublisher client => Storage.clearPublisher client
  | insertMessage client topicId message => Storage.insertMessage client topicId message
  | listSubscriptions client => Storage.listSubscriptions client
  | insertSubscriber client => Storage.insertSubscriber client
  | insertSubscription client topicId => Storage.insertSubscription client topicId
  | removeSubscription client topicId => Storage.removeSubscription client topicId
  | fetchCheckpoint => Storage.fetchCheckpoint
  | saveCheckpoint live dead => Storage.saveCheckpoint live dead
  | dropCheckpoint => Storage.dropCheckpoint

/-- The tables of topics: ids by name and names by id. -/
def topicTables (broker : Broker) : Table String × Table String :=
  (broker.store.topics, broker.store.names)

/-- Only the creation of topics writes to their tables. -/
theorem keeps_request (request : Request) : Keeps topicTables request.act := by
  cases request with
  | listTopics | findTopic | findPublisher | listSubscriptions => exact keeps_look _ _
  | clearPublisher client =>
      refine keeps_change _ ?_
      intro broker
      obtain ⟨publishers, hunbind⟩ := Registry.exists_unbind_eq client broker.store
      simp only [topicTables, hunbind]
  | fetchCheckpoint =>
      intro conditions broker
      simp only [Request.act, fetchCheckpoint, perform_operate]
      cases conditions.fault .fetchCheckpoint <;> rfl
  | _ => exact keeps_change _ fun _ => rfl

variable {conditions : Conditions} {broker : Broker}

theorem perform_insertTopic (name : String) :
    (insertTopic name).perform conditions broker =
      match conditions.fault .insertTopic with
      | some error => (.error error, broker)
      | none => (.ok (broker.store.insertTopic name (conditions.fresh 0)).1,
          { broker with store := (broker.store.insertTopic name (conditions.fresh 0)).2 }) := by
  rw [insertTopic, perform_bind]
  exact perform_operate _ _

/-- Topics are seeded together, unless they fail. -/
theorem perform_seedTopics {names : List String} (h : conditions.fault .insertTopic = none) :
    (seedTopics names).perform conditions broker =
      (.ok (), { broker with store := broker.store.seed names conditions.fresh }) := by
  induction names generalizing conditions broker with
  | nil => rfl
  | cons name names ih =>
      rw [seedTopics, perform_bind, perform_insertTopic, h]
      exact @ih { conditions with fresh := fun i => conditions.fresh (i + 1) } _ h

/-- Seeding that fails does so with the first name. -/
theorem perform_seedTopics_of_fault {error : BrokerError}
    (h : conditions.fault .insertTopic = some error) (names : List String) :
    ((seedTopics names).perform conditions broker).2 = broker := by
  cases names with
  | nil => rfl
  | cons name names => rw [seedTopics, perform_bind, perform_insertTopic, h]

end Storage

namespace Registry

/-! ## Steps -/

/-- What may be done to a broker and to its storage. -/
inductive Deed where
  | move (move : Move)
  | seed (names : List String)
  | request (request : Storage.Request)

namespace Deed

abbrev Answer : Deed → Type
  | move m => m.Answer
  | seed _ => Unit
  | request r => r.Answer

def act : (deed : Deed) → Action deed.Answer
  | move m => m.act
  | seed names => Storage.seedTopics names
  | request r => r.act

/-- The names that there are to be topics of. -/
def names : Deed → List String
  | move (.createTopic name) => [name]
  | seed names => names
  | _ => []

end Deed

/-- The names that a step inserts, whether there were topics of these names before or not. -/
def inserted (step : Step Deed) : List String :=
  if (step.conditions.fault .insertTopic).isNone then step.event.names else []

/-- The ids at hand for the topics that a step may create. -/
def idsAtHand (entry : Conditions × Deed) : List String :=
  Store.idsFor entry.2.names.length entry.1.fresh

theorem keeps_move {move : Move} (h : (Deed.move move).names = []) :
    Keeps Storage.topicTables move.act := by
  intro conditions broker
  rcases topics_after ⟨broker, conditions, move⟩ with ⟨htopics, hnames⟩ | ⟨name, hevent, -⟩
  · exact Prod.ext htopics hnames
  · obtain rfl : move = .createTopic name := hevent
    cases h

/-- A step seeds the names that it inserts, and does nothing else to the tables of topics. -/
theorem topicTables_after (step : Step Deed) :
    Storage.topicTables (step.after Deed.act) = Storage.topicTables
      { step.before with
        store := step.before.store.seed (inserted step) step.conditions.fresh } := by
  obtain ⟨before, conditions, event⟩ := step
  have kept (hnames : event.names = []) (h : Keeps Storage.topicTables event.act) :
      Storage.topicTables (Step.after Deed.act ⟨before, conditions, event⟩) =
        Storage.topicTables { before with
          store := before.store.seed (inserted ⟨before, conditions, event⟩) conditions.fresh } := by
    simpa [Step.after, inserted, hnames, Store.seed] using h conditions before
  cases event with
  | move move =>
      cases move with
      | createTopic name =>
          simp only [Step.after, Deed.act, Move.act, Storage.perform_insertTopic, inserted]
          cases conditions.fault .insertTopic <;> rfl
      | _ => exact kept rfl (keeps_move rfl)
  | seed names =>
      cases hfault : conditions.fault .insertTopic with
      | none =>
          simp [Step.after, Deed.act, inserted, hfault, Storage.perform_seedTopics, Deed.names]
      | some error =>
          simp [Step.after, Deed.act, inserted, hfault, Store.seed,
            Storage.perform_seedTopics_of_fault hfault]
  | request request => exact kept rfl (Storage.keeps_request request)

section

variable {step : Step Deed}

theorem topicId?_after_eq (step : Step Deed) :
    (step.after Deed.act).store.topicId? =
      (step.before.store.seed (inserted step) step.conditions.fresh).topicId? :=
  congrArg (fun tables : Table String × Table String => tables.1.find?) (topicTables_after step)

theorem names_after_eq (step : Step Deed) :
    (step.after Deed.act).store.names =
      (step.before.store.seed (inserted step) step.conditions.fresh).names :=
  congrArg Prod.snd (topicTables_after step)

/-- A name that is known keeps its id. -/
theorem known_after {name topicId : String} (h : step.before.store.topicId? name = some topicId) :
    (step.after Deed.act).store.topicId? name = some topicId := by
  rw [topicId?_after_eq]
  exact Store.topicId?_seed_of_known h _

theorem length_inserted_le (step : Step Deed) :
    (inserted step).length ≤ step.event.names.length := by
  unfold inserted
  split
  · exact Nat.le_refl _
  · exact Nat.zero_le _

/-- The ids that a step gives are among those at hand. -/
theorem idsFor_inserted_sublist (step : Step Deed) :
    (Store.idsFor (inserted step).length step.conditions.fresh).Sublist
      (idsAtHand (step.conditions, step.event)) := by
  refine List.Sublist.map _ ?_
  exact List.range_sublist.mpr (length_inserted_le step)

/-- What a step inserts is what it answers for. -/
theorem mem_inserted_iff {name : String} :
    name ∈ inserted step ↔
      (∃ topicId, step.reply Deed.act = ⟨.move (.createTopic name), .ok topicId⟩) ∨
        ∃ names, name ∈ names ∧ step.reply Deed.act = ⟨.seed names, .ok ()⟩ := by
  obtain ⟨before, conditions, event⟩ := step
  cases event with
  | move move =>
      cases move with
      | createTopic other =>
          simp only [Step.reply, Deed.act, Move.act, Storage.perform_insertTopic, inserted]
          cases conditions.fault .insertTopic <;> simp [Deed.names, eq_comm]
      | _ => simp [inserted, Deed.names, Step.reply]
  | seed names =>
      cases hfault : conditions.fault .insertTopic with
      | none =>
          simp [Step.reply, Deed.act, inserted, hfault, Storage.perform_seedTopics, Deed.names]
      | some error =>
          cases names <;>
            simp [Step.reply, Deed.act, inserted, hfault, Storage.seedTopics,
              Storage.perform_insertTopic]
  | request request => simp [inserted, Deed.names, Step.reply]

end

/-! ## Runs -/

/-- The ids at hand in a run. -/
def idsIn (schedule : Schedule Deed) : List String :=
  schedule.flatMap idsAtHand

/-- The deeds of some steps, with the conditions that they met. -/
def entries (steps : List (Step Deed)) : Schedule Deed :=
  steps.map fun step => (step.conditions, step.event)

theorem idsIn_entries_snoc (steps : List (Step Deed)) (step : Step Deed) :
    idsIn (entries (steps ++ [step])) =
      idsIn (entries steps) ++ idsAtHand (step.conditions, step.event) := by
  simp [idsIn, entries]

/-- What a run leaves of topics. -/
structure Settled (steps : List (Step Deed)) (broker : Broker) : Prop where
  paired : broker.store.Paired
  /-- Every id was at hand. -/
  given : ∀ topicId name, broker.store.names.find? topicId = some name →
    topicId ∈ idsIn (entries steps)
  /-- A name is known once it was inserted. -/
  known : ∀ name, (broker.store.topicId? name).isSome ↔ ∃ step ∈ steps, name ∈ inserted step

theorem settled_nil (defaultTtl : Nat) : Settled [] (.started .empty defaultTtl) where
  paired := Store.paired_empty
  given _ _ h := by cases h
  known name := by simp [Broker.started, Store.empty, Store.topicId?]

theorem Settled.snoc {steps : List (Step Deed)} {step : Step Deed} (h : Settled steps step.before)
    (hfresh : (idsIn (entries (steps ++ [step]))).Nodup) :
    Settled (steps ++ [step]) (step.after Deed.act) := by
  rw [idsIn_entries_snoc] at hfresh
  obtain ⟨-, hnodup, hdisjoint⟩ := List.nodup_append.mp hfresh
  have hsublist := idsFor_inserted_sublist step
  refine ⟨?_, ?_, ?_⟩
  · have hnew : ∀ topicId ∈ Store.idsFor (inserted step).length step.conditions.fresh,
        step.before.store.names.find? topicId = none := by
      intro topicId hmem
      by_contra hknown
      obtain ⟨name, hname⟩ := Option.ne_none_iff_exists'.mp hknown
      exact hdisjoint topicId (h.given topicId name hname) topicId (hsublist.subset hmem) rfl
    intro topicId name
    rw [names_after_eq, topicId?_after_eq]
    exact h.paired.seed (hnodup.sublist hsublist) hnew topicId name
  · intro topicId name hname
    rw [names_after_eq] at hname
    rw [idsIn_entries_snoc, List.mem_append]
    rcases Store.find?_names_seed hname with ⟨other, hother⟩ | hmem
    · exact .inl (h.given topicId other hother)
    · exact .inr (hsublist.subset hmem)
  · intro name
    rw [topicId?_after_eq, Store.isSome_topicId?_seed, h.known name]
    simp [or_comm, or_and_right, exists_or]

/-- The ids at hand in a run are new. -/
def FreshIds (schedule : Schedule Deed) : Prop :=
  (idsIn schedule).Nodup

theorem settled_final {schedule : Schedule Deed} (hfresh : FreshIds schedule) (defaultTtl : Nat) :
    Settled (schedule.steps Deed.act (.started .empty defaultTtl))
      (schedule.final Deed.act (.started .empty defaultTtl)) := by
  have hentries : entries (schedule.steps Deed.act (.started .empty defaultTtl)) = schedule :=
    Schedule.map_entry_steps Deed.act schedule _
  refine Schedule.run_induction Deed.act
    (motive := fun steps broker => (idsIn (entries steps)).Nodup → Settled steps broker)
    (fun _ => settled_nil defaultTtl) ?_ schedule (by rwa [hentries])
  intro steps step ih hsteps
  refine (ih ?_).snoc hsteps
  rw [idsIn_entries_snoc] at hsteps
  exact hsteps.of_append_left

/-- A name that is known to a step is known ever after, under the same id. -/
theorem known_final {schedule : Schedule Deed} {start : Broker} {step : Step Deed}
    (hstep : step ∈ schedule.steps Deed.act start) {name topicId : String}
    (h : (step.after Deed.act).store.topicId? name = some topicId) :
    (schedule.final Deed.act start).store.topicId? name = some topicId := by
  obtain ⟨earlier, later, hsplit⟩ := List.append_of_mem hstep
  obtain ⟨front, back, rfl, -, hbefore⟩ := Schedule.exists_front_of_steps_eq Deed.act hsplit
  rw [Schedule.final_append, hbefore]
  exact Schedule.final_of_steps Deed.act
    (P := fun broker => broker.store.topicId? name = some topicId) (fun _ _ => known_after) h

/-- A topic that was created has the id that was answered. -/
theorem topicId?_of_reply {step : Step Deed} {name topicId : String}
    (h : step.reply Deed.act = ⟨.move (.createTopic name), .ok topicId⟩) :
    (step.after Deed.act).store.topicId? name = some topicId := by
  obtain ⟨before, conditions, event⟩ := step
  obtain rfl : event = .move (.createTopic name) := congrArg Sigma.fst h
  simp only [Step.reply, Step.after, Deed.act, Move.act, Storage.perform_insertTopic] at h ⊢
  cases hfault : conditions.fault .insertTopic with
  | some error => simp [hfault] at h
  | none =>
      rw [Store.topicId?_insertTopic, if_pos rfl]
      simpa [hfault] using h

/-! ## What is done again -/

section

variable {conditions : Conditions} {broker : Broker}

theorem perform_insertTopic_of_known {name topicId : String}
    (h : broker.store.topicId? name = some topicId) :
    (Storage.insertTopic name).perform conditions broker =
      ((conditions.fault .insertTopic).elim (.ok topicId) .error, broker) := by
  rw [Storage.perform_insertTopic, Store.insertTopic_of_known h]
  cases conditions.fault .insertTopic <;> rfl

theorem perform_seedTopics_of_known {names : List String}
    (h : ∀ name ∈ names, (broker.store.topicId? name).isSome) :
    ((Storage.seedTopics names).perform conditions broker).2 = broker ∧
      (conditions.fault .insertTopic = none →
        ((Storage.seedTopics names).perform conditions broker).1 = .ok ()) := by
  cases hfault : conditions.fault .insertTopic with
  | some error => exact ⟨Storage.perform_seedTopics_of_fault hfault names, nofun⟩
  | none => simp [Storage.perform_seedTopics hfault, Store.seed_of_known h]

end

/-! ## All runs -/

/-- There was a topic of this name asked for, and this was not refused. -/
def Asked (steps : List (Step Deed)) (name : String) : Prop :=
  ∃ step ∈ steps, (∃ topicId, step.reply Deed.act = ⟨.move (.createTopic name), .ok topicId⟩) ∨
    ∃ names, name ∈ names ∧ step.reply Deed.act = ⟨.seed names, .ok ()⟩

/-- What topics are in a run, whatever fails and whenever the engine ends. -/
structure TopicsStay (steps : List (Step Deed)) (broker : Broker) : Prop where
  inverse : ∀ topicId name, broker.store.names.find? topicId = some name ↔
    broker.store.topicId? name = some topicId
  distinct : ∀ name other topicId, broker.store.topicId? name = some topicId →
    broker.store.topicId? other = some topicId → name = other
  /-- A name that has an id keeps it, from step to step and up to the end. -/
  stable : ∀ step ∈ steps, ∀ name topicId, step.before.store.topicId? name = some topicId →
    (step.after Deed.act).store.topicId? name = some topicId ∧
      broker.store.topicId? name = some topicId
  /-- What is answered to the creation of a topic is the id that the topic has from then on. -/
  answered : ∀ step ∈ steps, ∀ name topicId,
    step.reply Deed.act = ⟨.move (.createTopic name), .ok topicId⟩ →
      broker.store.topicId? name = some topicId
  /-- To create a topic again answers its id and changes nothing. -/
  again : ∀ name topicId, broker.store.topicId? name = some topicId → ∀ conditions : Conditions,
    (Storage.insertTopic name).perform conditions broker =
      ((conditions.fault .insertTopic).elim (.ok topicId) .error, broker)
  /-- The topics that were asked for are listed in the order of their bytes, each once. -/
  listed : ∀ conditions : Conditions, conditions.fault .listTopics = none →
    ∃ names, Storage.listTopics.perform conditions broker = (.ok names, broker) ∧
      names.Pairwise Precedes ∧ ∀ name, name ∈ names ↔ Asked steps name
  /-- To seed topics again changes nothing, in whichever order and however often. -/
  seeded : ∀ names, (∀ name ∈ names, Asked steps name) → ∀ conditions : Conditions,
    ((Storage.seedTopics names).perform conditions broker).2 = broker ∧
      (conditions.fault .insertTopic = none →
        ((Storage.seedTopics names).perform conditions broker).1 = .ok ())

theorem Settled.isSome_iff_asked {steps : List (Step Deed)} {broker : Broker}
    (h : Settled steps broker) {name : String} :
    (broker.store.topicId? name).isSome ↔ Asked steps name := by
  rw [h.known name]
  exact exists_congr fun step => and_congr_right fun _ => mem_inserted_iff

/-- Names and ids of topics belong together one to one, and what is once a topic stays the same
one. -/
theorem topics_stay (defaultTtl : Nat) (schedule : Schedule Deed) (hfresh : FreshIds schedule) :
    TopicsStay (schedule.steps Deed.act (.started .empty defaultTtl))
      (schedule.final Deed.act (.started .empty defaultTtl)) := by
  have hsettled := settled_final hfresh defaultTtl
  refine ⟨hsettled.paired, ?_, ?_, ?_, ?_, ?_, ?_⟩
  · intro name other topicId hname hother
    exact hsettled.paired.name_unique hname hother
  · intro step hstep name topicId hknown
    exact ⟨known_after hknown, known_final hstep (known_after hknown)⟩
  · intro step hstep name topicId hreply
    exact known_final hstep (topicId?_of_reply hreply)
  · intro name topicId hknown conditions
    exact perform_insertTopic_of_known hknown
  · intro conditions hfault
    refine ⟨_, by rw [Storage.listTopics, Storage.perform_look, hfault],
      Store.pairwise_topicNames _, ?_⟩
    intro name
    rw [Store.mem_topicNames_iff, hsettled.isSome_iff_asked]
  · intro names hasked conditions
    refine perform_seedTopics_of_known ?_
    intro name hname
    exact hsettled.isSome_iff_asked.mpr (hasked name hname)

/-- Topics are seeded, created again, and seeded again in another order after a restart. -/
def seededTwice : Schedule Deed :=
  [(.calm "a", .seed ["news", "", "news"]), (.calm "b", .move (.createTopic "müsli")),
    (.calm "c", .request (.insertPublisher ⟨41, by decide⟩ "a0")),
    (.calm "d", .move (.call (.registerSubscriber ⟨42, by decide⟩ "news"))),
    (.calm "e", .move .restart), (.calm "f", .seed ["müsli", "news"]),
    (.calm "g", .move (.createTopic ""))]

theorem topics_stay_seededTwice :
    FreshIds seededTwice ∧
      TopicsStay (seededTwice.steps Deed.act (.started .empty 60))
        (seededTwice.final Deed.act (.started .empty 60)) ∧
      (seededTwice.final Deed.act (.started .empty 60)).store.topicNames =
        ["", "müsli", "news"] := by
  have hfresh : FreshIds seededTwice := by
    unfold FreshIds
    decide +kernel
  exact ⟨hfresh, topics_stay 60 seededTwice hfresh, by decide +kernel⟩

end Registry

end TopicBroker
