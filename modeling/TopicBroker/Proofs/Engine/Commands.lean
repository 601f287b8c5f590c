import TopicBroker.Engine
import TopicBroker.Proofs.Action

/-! # What the commands of the engine do

Each command either changes nothing, or does what its law here says. -/

namespace TopicBroker.Engine

variable (conditions : Conditions) (broker : Broker)

/-- The broker with its queues changed. -/
def mapQueues (step : Queues → Queues) (broker : Broker) : Broker :=
  { broker with engine := { broker.engine with queues := step broker.engine.queues } }

/-- The messages that an enqueue takes. -/
def Accepts (topicId : String) (message : Message) : Prop :=
  topicId ≠ "" ∧ message.id ≠ "" ∧ message.payload ≠ ""

theorem perform_enqueue_of_accepts {topicId : String} {message : Message}
    (h : Accepts topicId message) :
    (handle (.enqueue topicId message)).perform conditions broker =
      (.ok (), mapQueues (·.enqueue topicId message) broker) := by
  obtain ⟨htopic, hid, hpayload⟩ := h
  simp [handle, handleEnqueue, htopic, hid, hpayload, modifyQueues, mapQueues]

omit conditions broker in
/-- An enqueue that is not accepted changes nothing, and is refused in the same words whatever the
engine holds. -/
theorem perform_enqueue_of_not_accepts {topicId : String} {message : Message}
    (h : ¬ Accepts topicId message) :
    ∃ detail, ∀ conditions broker, (handle (.enqueue topicId message)).perform conditions broker =
      (.error (.invalidArgument detail), broker) := by
  by_cases htopic : topicId = ""
  · refine ⟨"topicId cannot be empty", ?_⟩
    intro conditions broker
    simp [handle, handleEnqueue, htopic]
  · have hmessage : message.id = "" ∨ message.payload = "" := by
      by_cases hid : message.id = ""
      · exact .inl hid
      · exact .inr (Decidable.byContradiction fun hpayload => h ⟨htopic, hid, hpayload⟩)
    refine ⟨"message cannot be empty", ?_⟩
    intro conditions broker
    simp [handle, handleEnqueue, htopic, hmessage]

theorem perform_retrieve (topicId : String) :
    (handle (.retrieve topicId)).perform conditions broker =
      (.ok (broker.engine.queues.retrieve topicId conditions.now).1,
        mapQueues (fun queues => (queues.retrieve topicId conditions.now).2) broker) := by
  simp [handle, handleRetrieve, modifyQueues, mapQueues]

theorem perform_flush :
    (handle .flush).perform conditions broker =
      match conditions.fault .saveCheckpoint with
      | some error => (.error error, broker)
      | none =>
        (.ok (), { broker with
          store := broker.store.saveCheckpoint (broker.engine.queues.liveRows conditions.fresh)
            (broker.engine.queues.deadRows conditions.fresh) }) := by
  cases hfault : conditions.fault .saveCheckpoint with
  | some error => simp [handle, handleFlush, Storage.saveCheckpoint, hfault]
  | none => simp [handle, handleFlush, Storage.saveCheckpoint, hfault]

theorem perform_stats :
    (handle .stats).perform conditions broker = (.ok broker.engine.queues.stats, broker) := by
  simp [handle]

theorem perform_deadLetters (topicId : String) :
    (handle (.deadLetters topicId)).perform conditions broker =
      (.ok (broker.engine.queues.deadLetters topicId), broker) := by
  simp [handle]

/-! ## Loading -/
variable {conditions broker}

/-- The checkpoint that a load would merge: the first load merges the one that it fetches. -/
def merged? (conditions : Conditions) (broker : Broker) : Option Checkpoint :=
  if broker.engine.loaded then none
  else ((Storage.fetchCheckpoint.perform conditions broker).1).toOption

/-- The first load merges the checkpoint that is stored, if storage hands it out. -/
theorem merged?_eq_some_iff {checkpoint : Checkpoint} :
    merged? conditions broker = some checkpoint ↔ broker.engine.loaded = false ∧
      conditions.fault .fetchCheckpoint = none ∧ broker.store.checkpoint = .ok checkpoint := by
  rw [merged?, Storage.fetchCheckpoint, Storage.perform_operate]
  cases broker.engine.loaded with
  | true => simp
  | false =>
      cases conditions.fault .fetchCheckpoint with
      | some error => simp [Except.toOption]
      | none => cases broker.store.checkpoint <;> simp [Except.toOption]

theorem loaded_of_merged? {checkpoint : Checkpoint}
    (h : merged? conditions broker = some checkpoint) :
    broker.engine.loaded = false :=
  (merged?_eq_some_iff.mp h).1

/-- The broker after a checkpoint was merged into its queues. -/
def mergeCheckpoint (checkpoint : Checkpoint) (broker : Broker) : Broker :=
  { broker with engine := { broker.engine with
    queues := broker.engine.queues.merge checkpoint
    loaded := true } }

theorem perform_fetchCheckpoint_snd :
    (Storage.fetchCheckpoint.perform conditions broker).2 = broker := by
  rw [Storage.fetchCheckpoint, Storage.perform_operate]
  cases conditions.fault .fetchCheckpoint <;> rfl

/-- A load that merges nothing changes nothing. -/
theorem perform_load_of_none (h : merged? conditions broker = none) :
    ∃ error, (handle .load).perform conditions broker = (.error error, broker) := by
  unfold merged? at h
  by_cases hloaded : broker.engine.loaded
  · exact ⟨_, by simp [handle, handleLoad, hloaded]; rfl⟩
  · cases hfetch : (Storage.fetchCheckpoint.perform conditions broker).1 with
    | ok checkpoint => simp [hloaded, hfetch, Except.toOption] at h
    | error error =>
        have hall : Storage.fetchCheckpoint.perform conditions broker = (.error error, broker) :=
          Prod.ext hfetch perform_fetchCheckpoint_snd
        exact ⟨error, by simp [handle, handleLoad, hloaded, hall]⟩

theorem perform_load_of_some {checkpoint : Checkpoint}
    (h : merged? conditions broker = some checkpoint) :
    (handle .load).perform conditions broker =
      match conditions.fault .dropCheckpoint with
      | some error => (.error error, mergeCheckpoint checkpoint broker)
      | none => (.ok checkpoint.live.values.flatten.length,
          { mergeCheckpoint checkpoint broker with store := broker.store.dropCheckpoint }) := by
  unfold merged? at h
  split at h
  · cases h
  · next hloaded =>
      cases hfetch : (Storage.fetchCheckpoint.perform conditions broker).1 with
      | error error => simp [hfetch, Except.toOption] at h
      | ok fetched =>
          obtain rfl : fetched = checkpoint := by simpa [hfetch, Except.toOption] using h
          have hall : Storage.fetchCheckpoint.perform conditions broker = (.ok fetched, broker) :=
            Prod.ext hfetch perform_fetchCheckpoint_snd
          cases hdrop : conditions.fault .dropCheckpoint <;>
            simp [handle, handleLoad, hloaded, hall, Storage.dropCheckpoint, hdrop, mergeCheckpoint]

/-! ## The mailbox -/

/-- Commands leave the mailbox alone. -/
theorem mailbox_perform_handle (command : Command) :
    ((handle command).perform conditions broker).2.engine.mailbox = broker.engine.mailbox := by
  cases command with
  | enqueue topicId message =>
      by_cases h : Accepts topicId message
      · rw [perform_enqueue_of_accepts conditions broker h]
        rfl
      · obtain ⟨detail, hperform⟩ := perform_enqueue_of_not_accepts h
        rw [hperform]
  | retrieve topicId =>
      rw [perform_retrieve]
      rfl
  | load =>
      cases hmerged : merged? conditions broker with
      | none =>
          obtain ⟨error, hperform⟩ := perform_load_of_none hmerged
          rw [hperform]
      | some checkpoint =>
          rw [perform_load_of_some hmerged]
          cases conditions.fault .dropCheckpoint <;> rfl
  | flush =>
      rw [perform_flush]
      cases conditions.fault .saveCheckpoint <;> rfl
  | stats => rw [perform_stats]
  | deadLetters topicId => rw [perform_deadLetters]

/-- What waits is carried out whether what waits in front of it fails or not. -/
theorem perform_handleAll_cons (command : Command) (commands : List Command)
    (conditions : Conditions) (broker : Broker) :
    (handleAll (command :: commands)).perform conditions broker =
      (handleAll commands).perform conditions ((handle command).perform conditions broker).2 := by
  rcases hfirst : (handle command).perform conditions broker with ⟨_ | reply, next⟩ <;>
    simp [handleAll, hfirst]

theorem perform_handleAll (commands : List Command) (conditions : Conditions) (broker : Broker) :
    ∃ next, (handleAll commands).perform conditions broker = (.ok (), next) := by
  induction commands generalizing broker with
  | nil => exact ⟨broker, rfl⟩
  | cons command commands ih =>
      rw [perform_handleAll_cons]
      exact ih _

variable (conditions broker) in
/-- The broker when its engine has carried out what waited for it. -/
def settled : Broker :=
  (catchUp.perform conditions broker).2

theorem perform_catchUp :
    catchUp.perform conditions broker = (.ok (), settled conditions broker) := by
  obtain ⟨next, hnext⟩ := perform_handleAll broker.engine.mailbox conditions
    { broker with engine := { broker.engine with mailbox := [] } }
  have hcatchUp : catchUp.perform conditions broker = (.ok (), next) := by
    simpa [catchUp] using hnext
  rw [settled, hcatchUp]

theorem settled_of_mailbox (h : broker.engine.mailbox = []) :
    settled conditions broker = broker := by
  obtain ⟨store, ⟨queues, loaded, running, mailbox⟩, ttl⟩ := broker
  obtain rfl : mailbox = [] := h
  rfl

/-- An engine that runs takes a command when it has carried out what waits for it. -/
theorem perform_call_settled (command : Command) :
    (call command).perform conditions broker =
      if broker.engine.running then (handle command).perform conditions (settled conditions broker)
      else (.error (.internal "queue engine is not running"), broker) := by
  cases hrunning : broker.engine.running <;> simp [call, ensureRunning, hrunning, perform_catchUp]

/-- The states that a call may start from: the one that it finds, and the one in which the engine
has carried out what others sent it before. -/
inductive Starts (conditions : Conditions) (before : Broker) : Broker → Prop where
  | found : Starts conditions before before
  | settled : before.engine.mailbox ≠ [] → Starts conditions before (settled conditions before)

theorem starts_settled (conditions : Conditions) (before : Broker) :
    Starts conditions before (settled conditions before) := by
  by_cases hmailbox : before.engine.mailbox = []
  · rw [settled_of_mailbox hmailbox]
    exact .found
  · exact .settled hmailbox

theorem Starts.eq_of_mailbox {before start : Broker} (h : Starts conditions before start)
    (hmailbox : before.engine.mailbox = []) : start = before := by
  cases h with
  | found => rfl
  | settled hne => exact absurd hmailbox hne

/-- An enqueue is accepted, or it fails and changes nothing, from where it starts. -/
theorem exists_starts_enqueue (conditions : Conditions) (topicId : String) (message : Message)
    (broker : Broker) : ∃ start, Starts conditions broker start ∧
      ((enqueue topicId message).perform conditions broker =
          (.ok (), mapQueues (·.enqueue topicId message) start) ∨
        ∃ error, (enqueue topicId message).perform conditions broker = (.error error, start)) := by
  rw [enqueue, perform_call_settled]
  cases broker.engine.running with
  | false => exact ⟨_, .found, .inr ⟨_, rfl⟩⟩
  | true =>
      refine ⟨_, starts_settled conditions broker, ?_⟩
      by_cases haccepts : Accepts topicId message
      · exact .inl (perform_enqueue_of_accepts conditions _ haccepts)
      · obtain ⟨detail, hperform⟩ := perform_enqueue_of_not_accepts haccepts
        exact .inr ⟨_, hperform conditions _⟩

/-- An enqueue is accepted, or it fails and changes nothing. -/
theorem perform_enqueue_call (conditions : Conditions) (topicId : String) (message : Message)
    (h : broker.engine.mailbox = []) :
    (enqueue topicId message).perform conditions broker =
        (.ok (), mapQueues (·.enqueue topicId message) broker) ∨
      ∃ error, (enqueue topicId message).perform conditions broker = (.error error, broker) := by
  obtain ⟨start, hstarts, hperform⟩ := exists_starts_enqueue conditions topicId message broker
  obtain rfl := hstarts.eq_of_mailbox h
  exact hperform

/-- A retrieve takes the next message, or it fails and changes nothing, from where it starts. -/
theorem exists_starts_retrieve (conditions : Conditions) (topicId : String) (broker : Broker) :
    ∃ start, Starts conditions broker start ∧
      ((retrieve topicId).perform conditions broker =
          (.ok (start.engine.queues.retrieve topicId conditions.now).1,
            mapQueues (fun queues => (queues.retrieve topicId conditions.now).2) start) ∨
        ∃ error, (retrieve topicId).perform conditions broker = (.error error, start)) := by
  rw [retrieve, perform_call_settled]
  cases broker.engine.running with
  | false => exact ⟨_, .found, .inr ⟨_, rfl⟩⟩
  | true =>
      exact ⟨_, starts_settled conditions broker, .inl (perform_retrieve conditions _ topicId)⟩

/-- A retrieve takes the next message, or it fails and changes nothing. -/
theorem perform_retrieve_call (conditions : Conditions) (topicId : String)
    (h : broker.engine.mailbox = []) :
    (retrieve topicId).perform conditions broker =
        (.ok (broker.engine.queues.retrieve topicId conditions.now).1,
          mapQueues (fun queues => (queues.retrieve topicId conditions.now).2) broker) ∨
      ∃ error, (retrieve topicId).perform conditions broker = (.error error, broker) := by
  obtain ⟨start, hstarts, hperform⟩ := exists_starts_retrieve conditions topicId broker
  obtain rfl := hstarts.eq_of_mailbox h
  exact hperform

/-- An engine that nothing waits for is started anew without further ado. -/
theorem perform_restart (h : broker.engine.mailbox = []) :
    restart.perform conditions broker = (.ok (), { broker with engine := .fresh }) := by
  cases hrunning : broker.engine.running <;> simp [restart, catchUp, handleAll, h, hrunning]

end TopicBroker.Engine
