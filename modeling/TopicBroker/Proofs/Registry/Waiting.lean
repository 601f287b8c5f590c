import TopicBroker.Proofs.Engine.Fate
import TopicBroker.Proofs.Registry.Operations

/-! # What waits for the engine

A caller waits for the answer to what it sends, unless it is a flush and too late. So in every state
that a broker comes to nothing but flushes waits for the engine, and what waits can change nothing
but the checkpoint. -/

namespace TopicBroker

open TopicBroker.Action

/-! ## Only flushes wait -/

namespace Engine

variable {conditions : Conditions} {broker : Broker}

/-- Nothing but flushes waits for the engine. -/
def OnlyFlushesWait (broker : Broker) : Prop :=
  ∀ command ∈ broker.engine.mailbox, command = .flush

theorem onlyFlushesWait_of_nil (h : broker.engine.mailbox = []) : OnlyFlushesWait broker := by
  simp [OnlyFlushesWait, h]

theorem handleAll_flushes {commands : List Command} (h : ∀ command ∈ commands, command = .flush)
    (conditions : Conditions) (broker : Broker) :
    ∃ live dead, ((handleAll commands).perform conditions broker).2 =
      { broker with store := { broker.store with live, dead } } := by
  induction commands generalizing broker with
  | nil => exact ⟨broker.store.live, broker.store.dead, rfl⟩
  | cons command commands ih =>
      obtain ⟨hcommand, hcommands⟩ := List.forall_mem_cons.mp h
      subst hcommand
      rw [perform_handleAll_cons, perform_flush]
      cases conditions.fault .saveCheckpoint with
      | some error => exact ih hcommands broker
      | none => exact ih hcommands _

/-- Flushes that waited have changed nothing but the checkpoint. -/
theorem settled_of_onlyFlushesWait (h : OnlyFlushesWait broker) :
    ∃ live dead, settled conditions broker =
      { broker with
        store := { broker.store with live, dead }
        engine := { broker.engine with mailbox := [] } } := by
  obtain ⟨live, dead, hflushed⟩ := handleAll_flushes h conditions
    { broker with engine := { broker.engine with mailbox := [] } }
  exact ⟨live, dead, by simpa [settled, catchUp] using hflushed⟩

theorem mailbox_handleAll (commands : List Command) (conditions : Conditions) (broker : Broker) :
    ((handleAll commands).perform conditions broker).2.engine.mailbox = broker.engine.mailbox := by
  induction commands generalizing broker with
  | nil => rfl
  | cons command commands ih =>
      rw [perform_handleAll_cons, ih, mailbox_perform_handle]

theorem mailbox_settled : (settled conditions broker).engine.mailbox = [] := by
  simpa [settled, catchUp] using mailbox_handleAll broker.engine.mailbox conditions
    { broker with engine := { broker.engine with mailbox := [] } }

/-! ## Every action leaves it so -/

theorem preserves_call (command : Command) : Preserves OnlyFlushesWait (call command) := by
  intro conditions broker h
  rw [perform_call_settled]
  cases broker.engine.running with
  | false => exact h
  | true => exact onlyFlushesWait_of_nil ((mailbox_perform_handle command).trans mailbox_settled)

theorem perform_send (command : Command) :
    (send command).perform conditions broker =
      if broker.engine.running then
        (.ok (), { broker with engine := { broker.engine with
          mailbox := broker.engine.mailbox ++ [command] } })
      else (.error (.internal "queue engine is not running"), broker) := by
  cases hrunning : broker.engine.running <;> simp [send, ensureRunning, hrunning]

theorem preserves_send_flush : Preserves OnlyFlushesWait (send .flush) := by
  intro conditions broker h
  rw [perform_send]
  cases broker.engine.running with
  | false => exact h
  | true =>
      intro command hcommand
      rcases List.mem_append.mp hcommand with hcommand | hcommand
      · exact h command hcommand
      · exact List.mem_singleton.mp hcommand

theorem preserves_flush (late : Bool) : Preserves OnlyFlushesWait (flush late) := by
  cases late with
  | false => exact preserves_call .flush
  | true => exact preserves_bind preserves_send_flush fun _ => preserves_throw _

theorem preserves_kill : Preserves OnlyFlushesWait kill :=
  fun _ _ _ => onlyFlushesWait_of_nil rfl

theorem preserves_restart : Preserves OnlyFlushesWait restart := by
  intro conditions broker _
  refine onlyFlushesWait_of_nil ?_
  cases hrunning : broker.engine.running <;> simp [restart, hrunning, perform_catchUp, Engine.fresh]

end Engine

/-! ## Calls of the registry -/

namespace Registry

open Engine

theorem preserves_of_keeps {α : Type} {action : Action α} (h : Keeps (·.engine) action) :
    Preserves OnlyFlushesWait action := by
  intro conditions broker hwait
  have hengine : (action.perform conditions broker).2.engine = broker.engine := h conditions broker
  rw [OnlyFlushesWait, hengine]
  exact hwait

theorem preserves_of_keeps_messagesAndTopics {α : Type} {action : Action α}
    (h : Keeps messagesAndTopics action) : Preserves OnlyFlushesWait action :=
  preserves_of_keeps fun conditions broker => congrArg Prod.fst (h conditions broker)

theorem preserves_publish (publisher : ClientId) (draft : Draft) :
    Preserves OnlyFlushesWait (publish publisher draft) := by
  refine preserves_bind (preserves_of_keeps (keeps_look _ _)) ?_
  intro record
  cases record.topicId? with
  | none => exact preserves_throw _
  | some topicId =>
      refine preserves_bind (fun _ _ h => h) fun conditions => ?_
      refine preserves_bind (fun _ _ h => h) fun broker => ?_
      refine preserves_bind (fun _ _ h => h) fun message => ?_
      refine preserves_bind (preserves_call (.enqueue topicId message)) fun _ => ?_
      exact preserves_bind (preserves_of_keeps (keeps_change _ fun _ => rfl)) fun _ _ _ h => h

theorem preserves_carryOut (call : ServiceCall) : Preserves OnlyFlushesWait (carryOut call) := by
  cases call with
  | listTopics => exact preserves_of_keeps (keeps_look _ _)
  | registerPublisher publisher topicName =>
      exact preserves_of_keeps_messagesAndTopics (keeps_registerPublisher publisher topicName)
  | deregisterPublisher publisher =>
      exact preserves_of_keeps_messagesAndTopics (keeps_deregisterPublisher publisher)
  | publish publisher draft => exact preserves_publish publisher draft
  | registerSubscriber subscriber topicName =>
      exact preserves_of_keeps_messagesAndTopics (keeps_registerSubscriber subscriber topicName)
  | deregisterSubscriber subscriber topicName =>
      exact preserves_of_keeps_messagesAndTopics (keeps_deregisterSubscriber subscriber topicName)
  | listSubscriptions subscriber => exact preserves_of_keeps (keeps_look _ _)
  | readMessage subscriber topicName =>
      exact preserves_bind (preserves_of_keeps (keeps_resolve topicName)) fun topicId =>
        preserves_call (.retrieve topicId)

/-! ## Reachable states -/

/-- What may happen to a broker. -/
inductive Move where
  /-- A call of the registry. -/
  | call (call : ServiceCall)
  /-- A command to the engine, with the time to wait for the answer. -/
  | command (command : Command)
  | flush (late : Bool)
  | createTopic (name : String)
  | kill
  | restart

abbrev Move.Answer : Move → Type
  | call c => c.Answer
  | command c => c.Reply
  | flush _ => Unit
  | createTopic _ => String
  | kill => Unit
  | restart => Unit

def Move.act : (move : Move) → Action move.Answer
  | call c => carryOut c
  | command c => Engine.call c
  | flush late => Engine.flush late
  | createTopic name => Storage.insertTopic name
  | kill => Engine.kill
  | restart => Engine.restart

/-- The states that a broker comes to, from the start of its engine on some store. -/
def Reachable (broker : Broker) : Prop :=
  ∃ store defaultTtl, ∃ schedule : Schedule Move,
    broker = schedule.final Move.act (.started store defaultTtl)

theorem keeps_insertTopic (name : String) : Keeps (·.engine) (Storage.insertTopic name) := by
  intro conditions broker
  simp only [Storage.insertTopic, perform_bind, perform_read, Storage.perform_operate]
  cases conditions.fault .insertTopic <;> rfl

theorem preserves_act (move : Move) : Preserves OnlyFlushesWait move.act := by
  cases move with
  | call call => exact preserves_carryOut call
  | command command => exact preserves_call command
  | flush late => exact preserves_flush late
  | createTopic name => exact preserves_of_keeps (keeps_insertTopic name)
  | kill => exact preserves_kill
  | restart => exact preserves_restart

/-- Nothing but flushes ever waits for the engine. -/
theorem onlyFlushesWait_of_reachable {broker : Broker} (h : Reachable broker) :
    OnlyFlushesWait broker := by
  obtain ⟨store, defaultTtl, schedule, rfl⟩ := h
  refine Schedule.run_induction Move.act (motive := fun _ broker => OnlyFlushesWait broker)
    (onlyFlushesWait_of_nil rfl) ?_ schedule
  intro steps step hwait
  exact preserves_act step.event step.conditions step.before hwait

/-- What waits in a reachable state changes nothing but the checkpoint. -/
theorem exists_of_starts {conditions : Conditions} {before start : Broker} (h : Reachable before)
    (hstarts : Starts conditions before start) :
    ∃ live dead mailbox, start =
      { before with
        store := { before.store with live, dead }
        engine := { before.engine with mailbox } } := by
  cases hstarts with
  | found => exact ⟨before.store.live, before.store.dead, before.engine.mailbox, rfl⟩
  | settled =>
      obtain ⟨live, dead, hsettled⟩ := settled_of_onlyFlushesWait (onlyFlushesWait_of_reachable h)
      exact ⟨live, dead, [], hsettled⟩

end Registry

end TopicBroker
