import TopicBroker.Proofs.Engine.Commands

/-! # What the engine leaves alone

Whatever the engine is told, it touches its queues and the checkpoint, and nothing else that is
stored. -/

namespace TopicBroker.Engine

open TopicBroker.Action

variable {conditions : Conditions}

/-- What is stored of topics, clients and published messages, and how long messages live. -/
def records (broker : Broker) : Store × Span :=
  ({ broker.store with live := .empty, dead := .empty }, broker.defaultTtl)

/-! ## Commands -/

theorem keeps_handle (command : Command) : Keeps records (handle command) := by
  intro conditions broker
  cases command with
  | enqueue topicId message =>
      by_cases haccepts : Accepts topicId message
      · rw [perform_enqueue_of_accepts conditions broker haccepts]
        rfl
      · obtain ⟨detail, hperform⟩ := perform_enqueue_of_not_accepts haccepts
        rw [hperform]
  | retrieve topicId =>
      rw [perform_retrieve]
      rfl
  | load =>
      cases hmerged : merged? conditions broker with
      | none =>
          obtain ⟨error, hperform⟩ := perform_load_of_none hmerged
          rw [hperform]
      | some checkpoint =>
          rw [perform_load_of_some hmerged]
          cases conditions.fault .dropCheckpoint <;> rfl
  | flush =>
      rw [perform_flush]
      cases conditions.fault .saveCheckpoint <;> rfl
  | stats => rw [perform_stats]
  | deadLetters topicId => rw [perform_deadLetters]

theorem records_handleAll (commands : List Command) (conditions : Conditions) (broker : Broker) :
    records ((handleAll commands).perform conditions broker).2 = records broker := by
  induction commands generalizing broker with
  | nil => rfl
  | cons command commands ih =>
      rw [perform_handleAll_cons, ih, keeps_handle command conditions broker]

theorem records_settled (conditions : Conditions) (broker : Broker) :
    records (settled conditions broker) = records broker := by
  have hall := records_handleAll broker.engine.mailbox conditions
    { broker with engine := { broker.engine with mailbox := [] } }
  simp only [settled, catchUp, perform_bind, perform_get, perform_modify]
  exact hall

theorem Starts.records_eq {before start : Broker} (h : Starts conditions before start) :
    records start = records before := by
  cases h with
  | found => rfl
  | settled => exact records_settled conditions before

/-! ## Calls -/

theorem keeps_call (command : Command) : Keeps records (call command) := by
  intro conditions broker
  rw [perform_call_settled]
  cases broker.engine.running with
  | false => rfl
  | true => exact (keeps_handle command conditions _).trans (records_settled conditions broker)

theorem keeps_flush (late : Bool) : Keeps records (flush late) := by
  cases late with
  | false => exact keeps_call .flush
  | true =>
      intro conditions broker
      cases hrunning : broker.engine.running <;>
        simp [flush, send, ensureRunning, hrunning, records]

theorem keeps_kill : Keeps records kill :=
  fun _ _ => rfl

theorem keeps_restart : Keeps records restart := by
  intro conditions broker
  cases hrunning : broker.engine.running with
  | false => simp [restart, hrunning, records]
  | true =>
      simpa [restart, hrunning, perform_catchUp, records]
        using records_settled conditions broker

end TopicBroker.Engine
