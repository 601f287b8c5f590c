import Mathlib.Data.List.Induction
import TopicBroker.Proofs.Engine.Fate
import TopicBroker.Proofs.Registry.Effects

/-! # Calls in flight

Publishing and reading take several steps, and between the steps of one call others make theirs. A
call looks up where it goes, sends a command to the engine, waits until the engine has carried the
command out, and concludes. The engine takes the commands in the order in which they were sent. -/

namespace TopicBroker.Traffic

open TopicBroker.Action

/-! ## Calls and their steps -/

/-- A call that takes several steps. -/
inductive Call where
  | publish (publisher : ClientId) (draft : Draft)
  | readMessage (subscriber : ClientId) (topicName : String)

namespace Call

/-- The call of the service that it is. -/
abbrev service : Call → ServiceCall
  | publish publisher draft => .publish publisher draft
  | readMessage subscriber topicName => .readMessage subscriber topicName

/-- What a call has to find out before it can send a command: the id of the topic, and the message
if there is one to publish. -/
abbrev Target : Call → Type
  | publish .. => String × Message
  | readMessage .. => String

def lookUp : (call : Call) → Action call.Target
  | publish publisher draft => do
    match (← Storage.findPublisher publisher).topicId? with
    | none => throw (.failedPrecondition "not registered to any topic")
    | some topicId =>
      let conditions ← read
      let broker ← get
      let message ← Registry.stamp conditions.now broker.defaultTtl (conditions.fresh 0) draft
      return (topicId, message)
  | readMessage _ topicName => Registry.resolve topicName

abbrev command : (call : Call) → call.Target → Command
  | publish .., (topicId, message) => .enqueue topicId message
  | readMessage .., topicId => .retrieve topicId

/-- What the engine answers to the command of a call. -/
abbrev Reply (call : Call) (target : call.Target) : Type :=
  Except BrokerError (call.command target).Reply

/-- What is left to do when the engine has answered. -/
def conclude : (call : Call) → (target : call.Target) → call.Reply target →
    Action call.service.Answer
  | publish publisher _, (topicId, message), reply => do
    liftM reply
    Storage.insertMessage publisher topicId message
    return message.id
  | readMessage .., _, reply => liftM reply

end Call

/-- How far a call has come. -/
inductive Stage (call : Call) where
  | called
  | addressed (target : call.Target)
  /-- The command was sent, and the engine has not carried it out yet. -/
  | waiting (target : call.Target)
  | answered (target : call.Target) (reply : call.Reply target)
  | returned (target : call.Target) (reply : call.Reply target)
    (answer : Except BrokerError call.service.Answer)
  /-- The call failed before it sent a command. -/
  | refused (error : BrokerError)

/-- A call and how far it has come. -/
abbrev Entry := (call : Call) × Stage call

/-- The broker among its clients. -/
structure World where
  broker : Broker
  /-- All calls that were made, in the order in which they were made. -/
  calls : List Entry
  /-- The calls whose commands are in the mailbox, in the order of the commands. -/
  line : List Nat
  /-- What the engine has carried out. -/
  history : List (Step Command)

/-- A broker that has just started, and that nobody has called. -/
def World.started (store : Store) (defaultTtl : Nat) : World :=
  ⟨.started store defaultTtl, [], [], []⟩

/-- The world with one more call. -/
def World.join (world : World) (entry : Entry) : World :=
  { world with calls := world.calls ++ [entry] }

/-- What may happen next. -/
inductive Move where
  | call (call : Call)
  /-- A call takes its next step, unless it waits for the engine or has returned. -/
  | advance (caller : Nat)
  /-- The engine carries out the first command of its mailbox. -/
  | work
  /-- Others change the store. -/
  | elsewhere (change : Store → Store)

/-- A call that waits is given the answer to its command. -/
def Entry.receive : Entry → (command : Command) × Except BrokerError command.Reply → Entry
  | ⟨call, .waiting target⟩, ⟨command, reply⟩ =>
    if h : command = call.command target then
      ⟨call, .answered target (h ▸ reply : Except BrokerError (call.command target).Reply)⟩
    else ⟨call, .waiting target⟩
  | entry, _ => entry

namespace World

def advance (conditions : Conditions) (caller : Nat) (world : World) : World :=
  match world.calls[caller]? with
  | some ⟨call, .called⟩ =>
    match call.lookUp.perform conditions world.broker with
    | (.ok target, broker) =>
      { world with broker, calls := world.calls.set caller ⟨call, .addressed target⟩ }
    | (.error error, broker) =>
      { world with broker, calls := world.calls.set caller ⟨call, .refused error⟩ }
  | some ⟨call, .addressed target⟩ =>
    match (Engine.send (call.command target)).perform conditions world.broker with
    | (.ok (), broker) =>
      { world with
        broker
        calls := world.calls.set caller ⟨call, .waiting target⟩
        line := world.line ++ [caller] }
    | (.error error, broker) =>
      { world with broker, calls := world.calls.set caller ⟨call, .refused error⟩ }
  | some ⟨call, .answered target reply⟩ =>
    let (answer, broker) := (call.conclude target reply).perform conditions world.broker
    { world with broker, calls := world.calls.set caller ⟨call, .returned target reply answer⟩ }
  | some ⟨_, .waiting _⟩ | some ⟨_, .returned ..⟩ | some ⟨_, .refused _⟩ | none => world

/-- What the engine does with a command, the others left in the mailbox. -/
def working (conditions : Conditions) (command : Command) (mailbox : List Command)
    (broker : Broker) : Step Command :=
  ⟨{ broker with engine := { broker.engine with mailbox } }, conditions, command⟩

def work (conditions : Conditions) (world : World) : World :=
  match world.line, world.broker.engine.mailbox with
  | caller :: line, command :: mailbox =>
    let step := working conditions command mailbox world.broker
    { broker := step.after Engine.handle
      calls := world.calls.modify caller (·.receive (step.reply Engine.handle))
      line
      history := world.history ++ [step] }
  | _, _ => world

def move (conditions : Conditions) (world : World) : Move → World
  | .call call => world.join ⟨call, .called⟩
  | .advance caller => world.advance conditions caller
  | .work => world.work conditions
  | .elsewhere change =>
    { world with broker := { world.broker with store := change world.broker.store } }

/-- The world after the moves of a schedule. -/
def run (schedule : Schedule Move) (world : World) : World :=
  schedule.foldl (fun world entry => world.move entry.1 entry.2) world

end World

/-! ## What a move does -/

/-- The command of a call that waits. -/
def Entry.command? : Entry → Option Command
  | ⟨call, .waiting target⟩ => some (call.command target)
  | _ => none

/-- The command that the engine has carried out for a call, with its answer. -/
def Entry.outcome? : Entry → Option ((command : Command) × Except BrokerError command.Reply)
  | ⟨call, .answered target reply⟩ => some ⟨call.command target, reply⟩
  | ⟨call, .returned target reply _⟩ => some ⟨call.command target, reply⟩
  | _ => none

theorem Entry.eq_waiting_of_command? {entry : Entry} {command : Command}
    (h : entry.command? = some command) :
    ∃ call target, entry = ⟨call, .waiting target⟩ ∧ command = call.command target := by
  obtain ⟨call, _ | _ | target | _ | _ | _⟩ := entry
  case waiting => exact ⟨call, target, rfl, (Option.some.inj h).symm⟩
  all_goals cases h

/-- The command that a call waits for. -/
def World.command? (world : World) (caller : Nat) : Option Command :=
  world.calls[caller]?.bind Entry.command?

/-- The calls in line wait for the commands in the mailbox, in their order. -/
structure Lined (world : World) : Prop where
  mailbox : world.broker.engine.mailbox.map some = world.line.map world.command?
  nodup : world.line.Nodup

/-- What a move does, one case for each way in which it can go. -/
inductive Happens (conditions : Conditions) (world : World) : Move → World → Prop where
  | nothing (move : Move) : Happens conditions world move world
  | called (call : Call) :
      Happens conditions world (.call call) (world.join ⟨call, .called⟩)
  | addressed {caller : Nat} {call : Call} {target : call.Target}
      (entry : world.calls[caller]? = some ⟨call, .called⟩)
      (found : (call.lookUp.perform conditions world.broker).1 = .ok target) :
      Happens conditions world (.advance caller)
        { world with calls := world.calls.set caller ⟨call, .addressed target⟩ }
  | refused {caller : Nat} {call : Call} {stage : Stage call} (error : BrokerError)
      (entry : world.calls[caller]? = some ⟨call, stage⟩)
      (unsent : stage = .called ∨ ∃ target, stage = .addressed target) :
      Happens conditions world (.advance caller)
        { world with calls := world.calls.set caller ⟨call, .refused error⟩ }
  | sent {caller : Nat} {call : Call} {target : call.Target}
      (entry : world.calls[caller]? = some ⟨call, .addressed target⟩) :
      Happens conditions world (.advance caller)
        { world with
          broker := { world.broker with engine := { world.broker.engine with
            mailbox := world.broker.engine.mailbox ++ [call.command target] } }
          calls := world.calls.set caller ⟨call, .waiting target⟩
          line := world.line ++ [caller] }
  | worked {caller : Nat} {line : List Nat} {call : Call} {target : call.Target}
      {mailbox : List Command} {step : Step Command} {reply : call.Reply target}
      (entry : world.calls[caller]? = some ⟨call, .waiting target⟩)
      (first : world.line = caller :: line)
      (command : world.broker.engine.mailbox = call.command target :: mailbox)
      (working : step = World.working conditions (call.command target) mailbox world.broker)
      (answer : step.reply Engine.handle = ⟨call.command target, reply⟩) :
      Happens conditions world .work
        { broker := step.after Engine.handle
          calls := world.calls.set caller ⟨call, .answered target reply⟩
          line
          history := world.history ++ [step] }
  | returned {caller : Nat} {call : Call} {target : call.Target} {reply : call.Reply target}
      (store : Store) (entry : world.calls[caller]? = some ⟨call, .answered target reply⟩) :
      Happens conditions world (.advance caller)
        { world with
          broker := { world.broker with store }
          calls := world.calls.set caller ⟨call, .returned target reply
            ((call.conclude target reply).perform conditions world.broker).1⟩ }
  | elsewhere (change : Store → Store) :
      Happens conditions world (.elsewhere change)
        { world with broker := { world.broker with store := change world.broker.store } }

variable {conditions : Conditions} {world : World}

/-- What a call looks up: the topic that the publisher is bound to and the message of the draft, or
the topic of a name. -/
def Call.Finds (conditions : Conditions) (broker : Broker) : (call : Call) → call.Target → Prop
  | publish publisher draft, (topicId, message) =>
    broker.store.publisher publisher = .bound topicId ∧
      Registry.Stamped conditions.now broker.defaultTtl (conditions.fresh 0) draft message
  | readMessage _ topicName, topicId => broker.store.topicId? topicName = some topicId

/-- Looking up only looks. -/
theorem perform_lookUp (call : Call) (conditions : Conditions) (broker : Broker) :
    (∃ error, call.lookUp.perform conditions broker = (.error error, broker)) ∨
      ∃ target, call.lookUp.perform conditions broker = (.ok target, broker) ∧
        call.Finds conditions broker target := by
  cases call with
  | publish publisher draft =>
      simp only [Call.lookUp, Storage.findPublisher, perform_bind, Storage.perform_look]
      cases conditions.fault .findPublisher with
      | some error => exact .inl ⟨error, rfl⟩
      | none =>
          dsimp only
          cases hbound : broker.store.publisher publisher with
          | missing | unbound => exact .inl ⟨_, rfl⟩
          | bound topicId =>
              simp only [PublisherRecord.topicId?, perform_bind, perform_read, perform_get,
                perform_liftExcept]
              cases hstamp : Registry.stamp conditions.now broker.defaultTtl (conditions.fresh 0)
                  draft with
              | error error => exact .inl ⟨error, rfl⟩
              | ok message =>
                  exact .inr ⟨(topicId, message), rfl, hbound, Registry.stamped_of_stamp hstamp⟩
  | readMessage subscriber topicName =>
      rcases Registry.perform_resolve conditions broker topicName with
        ⟨topicId, hknown, hperform⟩ | ⟨error, hperform⟩
      · exact .inr ⟨topicId, hperform, hknown⟩
      · exact .inl ⟨error, hperform⟩

theorem finds_of_lookUp {call : Call} {conditions : Conditions} {broker : Broker}
    {target : call.Target} (h : (call.lookUp.perform conditions broker).1 = .ok target) :
    call.Finds conditions broker target := by
  rcases perform_lookUp call conditions broker with
    ⟨error, hperform⟩ | ⟨found, hperform, hfinds⟩
  · rw [hperform] at h
    cases h
  · rw [hperform] at h
    obtain rfl := Except.ok.inj h
    exact hfinds

/-- A publishing call concludes with a row in the log, if its message was taken in. -/
theorem perform_conclude_publish {publisher : ClientId} {draft : Draft} {topicId : String}
    {message : Message} (reply : (Call.publish publisher draft).Reply (topicId, message))
    (conditions : Conditions) (broker : Broker) :
    ((Call.publish publisher draft).conclude (topicId, message) reply).perform conditions broker =
      match reply, conditions.fault .insertMessage with
      | .error error, _ => (.error error, broker)
      | .ok (), some error => (.error error, broker)
      | .ok (), none =>
        (.ok message.id,
          { broker with store := broker.store.logMessage publisher topicId message }) := by
  cases reply with
  | error error => rfl
  | ok reply =>
      simp only [Call.conclude, Storage.insertMessage, perform_bind, perform_liftExcept,
        Storage.perform_change]
      cases conditions.fault .insertMessage <;> rfl

/-- Concluding leaves the engine alone. -/
theorem perform_conclude_snd (call : Call) (target : call.Target) (reply : call.Reply target)
    (conditions : Conditions) (broker : Broker) :
    ∃ store,
      ((call.conclude target reply).perform conditions broker).2 = { broker with store } := by
  cases call with
  | publish publisher draft =>
      rw [perform_conclude_publish]
      split
      · exact ⟨broker.store, rfl⟩
      · exact ⟨broker.store, rfl⟩
      · exact ⟨_, rfl⟩
  | readMessage subscriber topicName => exact ⟨broker.store, rfl⟩

theorem perform_send (command : Command) (conditions : Conditions) (broker : Broker) :
    (Engine.send command).perform conditions broker =
      if broker.engine.running then
        (.ok (), { broker with engine := { broker.engine with
          mailbox := broker.engine.mailbox ++ [command] } })
      else (.error (.internal "queue engine is not running"), broker) := by
  cases hrunning : broker.engine.running <;> simp [Engine.send, Engine.ensureRunning, hrunning]

theorem happens_advance (conditions : Conditions) (world : World) (caller : Nat) :
    Happens conditions world (.advance caller) (world.advance conditions caller) := by
  unfold World.advance
  split
  · next call hentry =>
      rcases perform_lookUp call conditions world.broker with
        ⟨error, hperform⟩ | ⟨target, hperform, -⟩
      · rw [hperform]
        exact .refused error hentry (.inl rfl)
      · rw [hperform]
        exact .addressed hentry (congrArg Prod.fst hperform)
  · next call target hentry =>
      rw [perform_send]
      cases world.broker.engine.running with
      | true => exact .sent hentry
      | false => exact .refused _ hentry (.inr ⟨target, rfl⟩)
  · next call target reply hentry =>
      obtain ⟨store, hstore⟩ := perform_conclude_snd call target reply conditions world.broker
      dsimp only
      rw [hstore]
      exact .returned store hentry
  all_goals exact .nothing _

theorem happens_move (h : Lined world) (conditions : Conditions) (move : Move) :
    Happens conditions world move (world.move conditions move) := by
  cases move with
  | call call => exact .called call
  | advance caller => exact happens_advance conditions world caller
  | elsewhere change => exact .elsewhere change
  | work =>
      simp only [World.move, World.work]
      split
      · next caller line command mailbox hline hcommand =>
          have hfirst := h.mailbox
          rw [hline, hcommand, List.map_cons, List.map_cons] at hfirst
          have hwaits := (List.cons.inj hfirst).1
          obtain ⟨entry, hentry, hwaits⟩ := Option.bind_eq_some_iff.mp hwaits.symm
          obtain ⟨call, target, rfl, rfl⟩ := Entry.eq_waiting_of_command? hwaits
          have hmodify : world.calls.modify caller (·.receive
              ((World.working conditions (call.command target) mailbox world.broker).reply
                Engine.handle)) = world.calls.set caller ⟨call, .answered target
              ((World.working conditions (call.command target) mailbox world.broker).reply
                Engine.handle).2⟩ := by
            rw [List.modify_eq_set_getElem?, hentry]
            exact congrArg (world.calls.set caller) (dif_pos rfl)
          rw [hmodify]
          exact .worked hentry hline hcommand rfl rfl
      · exact .nothing _

/-! ## The line -/

namespace Lined

variable {next : World} {caller : Nat} {entry : Entry}

theorem exists_command (h : Lined world) (hmem : caller ∈ world.line) :
    ∃ command, world.command? caller = some command := by
  have hcommand : world.command? caller ∈ world.broker.engine.mailbox.map some := by
    rw [h.mailbox]
    exact List.mem_map_of_mem hmem
  obtain ⟨command, -, hcommand⟩ := List.mem_map.mp hcommand
  exact ⟨command, hcommand.symm⟩

theorem not_mem (h : Lined world) (hentry : world.calls[caller]? = some entry)
    (hcommand : entry.command? = none) : caller ∉ world.line := by
  intro hmem
  obtain ⟨command, hwaits⟩ := h.exists_command hmem
  rw [World.command?, hentry, Option.bind_some, hcommand] at hwaits
  cases hwaits

/-- Calls that are not in line may go on. -/
theorem congr (h : Lined world)
    (hmailbox : next.broker.engine.mailbox = world.broker.engine.mailbox)
    (hline : next.line = world.line)
    (hcalls : ∀ caller ∈ world.line, next.calls[caller]? = world.calls[caller]?) : Lined next := by
  refine ⟨?_, hline ▸ h.nodup⟩
  rw [hmailbox, hline, h.mailbox]
  refine List.map_congr_left ?_
  intro caller hmem
  rw [World.command?, World.command?, hcalls caller hmem]

/-- What happens to a call out of line is not seen in line. -/
theorem getElem?_set {line : List Nat} (hnot : caller ∉ line) {other : Nat} (hmem : other ∈ line) :
    (world.calls.set caller entry)[other]? = world.calls[other]? := by
  have hne : caller ≠ other := fun heq => hnot (heq ▸ hmem)
  exact List.getElem?_set_ne hne

/-- A call that is not in line may go on. -/
theorem set (h : Lined world) (hmailbox : next.broker.engine.mailbox = world.broker.engine.mailbox)
    (hline : next.line = world.line) (hcalls : next.calls = world.calls.set caller entry)
    (hnot : caller ∉ world.line) : Lined next := by
  refine h.congr hmailbox hline ?_
  intro other hmem
  rw [hcalls, getElem?_set hnot hmem]

theorem send (h : Lined world) {call : Call} {target : call.Target}
    (hentry : world.calls[caller]? = some ⟨call, .addressed target⟩)
    (hmailbox : next.broker.engine.mailbox =
      world.broker.engine.mailbox ++ [call.command target])
    (hline : next.line = world.line ++ [caller])
    (hcalls : next.calls = world.calls.set caller ⟨call, .waiting target⟩) : Lined next := by
  have hnot := h.not_mem hentry rfl
  have hothers : world.line.map next.command? = world.line.map world.command? := by
    refine List.map_congr_left ?_
    intro other hmem
    rw [World.command?, World.command?, hcalls, getElem?_set hnot hmem]
  have hlast : next.command? caller = some (call.command target) := by
    rw [World.command?, hcalls, List.getElem?_set_self (List.getElem?_eq_some_iff.mp hentry).1]
    rfl
  constructor
  · rw [hmailbox, hline, List.map_append, List.map_append, h.mailbox, hothers, List.map_singleton,
      List.map_singleton, hlast]
  · rw [hline]
    refine List.nodup_append.mpr ⟨h.nodup, List.nodup_singleton _, ?_⟩
    intro other hmem last hlast heq
    exact hnot (List.mem_singleton.mp hlast ▸ heq ▸ hmem)

theorem work (h : Lined world) {line : List Nat} {command : Command} {mailbox : List Command}
    (hfirst : world.line = caller :: line)
    (hcommand : world.broker.engine.mailbox = command :: mailbox)
    (hmailbox : next.broker.engine.mailbox = mailbox) (hline : next.line = line)
    (hcalls : next.calls = world.calls.set caller entry) : Lined next := by
  have hnodup := h.nodup
  have hwaits := h.mailbox
  rw [hfirst, List.nodup_cons] at hnodup
  rw [hfirst, hcommand] at hwaits
  have hothers : line.map next.command? = line.map world.command? := by
    refine List.map_congr_left ?_
    intro other hmem
    rw [World.command?, World.command?, hcalls, getElem?_set hnodup.1 hmem]
  constructor
  · rw [hmailbox, hline, hothers]
    exact (List.cons.inj hwaits).2
  · rw [hline]
    exact hnodup.2

end Lined

theorem lined_of_happens {next : World} {move : Move} (h : Lined world)
    (hhappens : Happens conditions world move next) : Lined next := by
  cases hhappens with
  | nothing => exact h
  | called call =>
      refine h.congr rfl rfl ?_
      intro caller hmem
      obtain ⟨command, hcommand⟩ := h.exists_command hmem
      obtain ⟨entry, hentry, -⟩ := Option.bind_eq_some_iff.mp hcommand
      exact List.getElem?_append_left (List.getElem?_eq_some_iff.mp hentry).1
  | addressed hentry hfound => exact h.set rfl rfl rfl (h.not_mem hentry rfl)
  | refused error hentry hunsent =>
      refine h.set rfl rfl rfl (h.not_mem hentry ?_)
      obtain rfl | ⟨target, rfl⟩ := hunsent <;> rfl
  | sent hentry => exact h.send hentry rfl rfl rfl
  | worked hentry hline hmailbox hworking _ =>
      obtain rfl := hworking
      exact h.work hline hmailbox (Engine.mailbox_perform_handle _) rfl rfl
  | returned store hentry => exact h.set rfl rfl rfl (h.not_mem hentry rfl)
  | elsewhere change => exact h.congr rfl rfl fun _ _ => rfl

/-! ## Runs -/

theorem World.run_concat (schedule : Schedule Move) (conditions : Conditions) (move : Move)
    (start : World) : start.run (schedule ++ [(conditions, move)]) =
      (start.run schedule).move conditions move := by
  simp [World.run]

theorem lined_started (store : Store) (defaultTtl : Nat) : Lined (.started store defaultTtl) :=
  ⟨rfl, .nil⟩

/-- What holds at the start, and is kept by whatever happens next, holds at the end. -/
theorem World.run_induction {start : World} (hstart : Lined start)
    {motive : Schedule Move → World → Prop} (nil : motive [] start)
    (snoc : ∀ schedule conditions move next,
      Happens conditions (start.run schedule) move next → motive schedule (start.run schedule) →
        motive (schedule ++ [(conditions, move)]) next)
    (schedule : Schedule Move) : motive schedule (start.run schedule) := by
  suffices h : Lined (start.run schedule) ∧ motive schedule (start.run schedule) from h.2
  induction schedule using List.reverseRecOn with
  | nil => exact ⟨hstart, nil⟩
  | append_singleton schedule entry ih =>
      obtain ⟨conditions, move⟩ := entry
      obtain ⟨hlined, h⟩ := ih
      have hhappens := happens_move hlined conditions move
      rw [World.run_concat]
      exact ⟨lined_of_happens hlined hhappens, snoc schedule conditions move _ hhappens h⟩

/-! ## Calls that nobody disturbs -/

/-- The steps of a call, with nothing in between, are what the service does in one go. -/
theorem perform_carryOut (call : Call) (conditions : Conditions) (broker : Broker) :
    (Registry.carryOut call.service).perform conditions broker =
      match (call.lookUp.perform conditions broker).1 with
      | .error error => (.error error, broker)
      | .ok target =>
        let outcome := (Engine.call (call.command target)).perform conditions broker
        (call.conclude target outcome.1).perform conditions outcome.2 := by
  cases call with
  | publish publisher draft =>
      simp only [Registry.carryOut, Registry.publish, Call.lookUp, Storage.findPublisher,
        perform_bind, Storage.perform_look]
      cases conditions.fault .findPublisher with
      | some error => rfl
      | none =>
          dsimp only
          cases (broker.store.publisher publisher).topicId? with
          | none => rfl
          | some topicId =>
              simp only [perform_bind, perform_read, perform_get, perform_liftExcept]
              cases Registry.stamp conditions.now broker.defaultTtl (conditions.fresh 0) draft with
              | error error => rfl
              | ok message =>
                  simp only [perform_pure, Engine.enqueue, Call.conclude, perform_bind,
                    perform_liftExcept]
  | readMessage subscriber topicName =>
      simp only [Registry.carryOut, Registry.readMessage, Call.lookUp, perform_bind]
      rcases Registry.perform_resolve conditions broker topicName with
        ⟨topicId, -, hperform⟩ | ⟨error, hperform⟩
      · rw [hperform]
        rfl
      · rw [hperform]

/-- What a call has answered. -/
def Stage.answer? {call : Call} : Stage call → Option (Except BrokerError call.service.Answer)
  | .returned _ _ answer => some answer
  | .refused error => some (.error error)
  | _ => none

theorem advance_join_called (conditions : Conditions) (world : World) (call : Call) :
    (world.join ⟨call, .called⟩).advance conditions world.calls.length =
      world.join ⟨call, match (call.lookUp.perform conditions world.broker).1 with
        | .ok target => .addressed target
        | .error error => .refused error⟩ := by
  rcases perform_lookUp call conditions world.broker with
    ⟨error, hperform⟩ | ⟨target, hperform, -⟩ <;>
    simp [World.advance, World.join, hperform]

theorem advance_join_refused (conditions : Conditions) (world : World) (call : Call)
    (error : BrokerError) :
    (world.join ⟨call, .refused error⟩).advance conditions world.calls.length =
      world.join ⟨call, .refused error⟩ := by
  simp [World.advance, World.join]

theorem advance_join_addressed (conditions : Conditions) {call : Call} (target : call.Target)
    (hrunning : world.broker.engine.running = true) :
    (world.join ⟨call, .addressed target⟩).advance conditions world.calls.length =
      { world.join ⟨call, .waiting target⟩ with
        broker := { world.broker with engine := { world.broker.engine with
          mailbox := world.broker.engine.mailbox ++ [call.command target] } }
        line := world.line ++ [world.calls.length] } := by
  simp [World.advance, World.join, perform_send, hrunning]

theorem advance_join_answered (conditions : Conditions) (world : World) {call : Call}
    (target : call.Target) (reply : call.Reply target) :
    (world.join ⟨call, .answered target reply⟩).advance conditions world.calls.length =
      { world.join ⟨call, .returned target reply
          ((call.conclude target reply).perform conditions world.broker).1⟩ with
        broker := ((call.conclude target reply).perform conditions world.broker).2 } := by
  simp [World.advance, World.join]

theorem work_join_waiting (conditions : Conditions) {call : Call} (target : call.Target)
    (hline : world.line = []) (hmailbox : world.broker.engine.mailbox = []) :
    ∃ history, World.work conditions
        { world.join ⟨call, .waiting target⟩ with
          broker := { world.broker with engine := { world.broker.engine with
            mailbox := world.broker.engine.mailbox ++ [call.command target] } }
          line := world.line ++ [world.calls.length] } =
      World.join
        ⟨((Engine.handle (call.command target)).perform conditions world.broker).2, world.calls, [],
          history⟩
        ⟨call, .answered target
          ((Engine.handle (call.command target)).perform conditions world.broker).1⟩ := by
  obtain ⟨⟨store, ⟨queues, loaded, running, mailbox⟩, defaultTtl⟩, calls, line, history⟩ := world
  obtain rfl : line = [] := hline
  obtain rfl : mailbox = [] := hmailbox
  have hcalls (entry : Entry) (f : Entry → Entry) :
      (calls ++ [entry]).modify calls.length f = calls ++ [f entry] := by
    rw [List.modify_eq_set_getElem?, List.getElem?_concat_length]
    simp
  let step : Step Command :=
    ⟨⟨store, ⟨queues, loaded, running, []⟩, defaultTtl⟩, conditions, call.command target⟩
  have hreceive : Entry.receive ⟨call, .waiting target⟩ (step.reply Engine.handle) =
      ⟨call, .answered target (step.reply Engine.handle).2⟩ := dif_pos rfl
  refine ⟨history ++ [step], ?_⟩
  have hlast := hcalls ⟨call, .waiting target⟩ (·.receive (step.reply Engine.handle))
  rw [hreceive] at hlast
  exact congrArg (World.mk (step.after Engine.handle) · [] (history ++ [step])) hlast

/-- A call that nobody disturbs does what the service does. -/
theorem run_alone (call : Call) (conditions : Conditions) (hline : world.line = [])
    (hmailbox : world.broker.engine.mailbox = []) (hrunning : world.broker.engine.running = true) :
    let caller := world.calls.length
    let outcome := (Registry.carryOut call.service).perform conditions world.broker
    let final := world.run
      [(conditions, .call call), (conditions, .advance caller), (conditions, .advance caller),
        (conditions, .work), (conditions, .advance caller)]
    final.broker = outcome.2 ∧ ∃ stage, final.calls = world.calls ++ [⟨call, stage⟩] ∧
      stage.answer? = some outcome.1 := by
  simp only [World.run, List.foldl_cons, List.foldl_nil, World.move, advance_join_called,
    perform_carryOut]
  cases (call.lookUp.perform conditions world.broker).1 with
  | error error =>
      dsimp only
      have hwork : (world.join ⟨call, .refused error⟩).work conditions =
          world.join ⟨call, .refused error⟩ := by
        simp [World.work, World.join, hline]
      rw [advance_join_refused, hwork, advance_join_refused]
      exact ⟨rfl, .refused error, rfl, rfl⟩
  | ok target =>
      dsimp only
      obtain ⟨history, hwork⟩ := work_join_waiting conditions target hline hmailbox
      rw [advance_join_addressed conditions target hrunning, hwork]
      have hcall : (Engine.call (call.command target)).perform conditions world.broker =
          (Engine.handle (call.command target)).perform conditions world.broker := by
        rw [Engine.perform_call_settled, Engine.settled_of_mailbox hmailbox, if_pos hrunning]
      rw [hcall]
      have hlast := advance_join_answered conditions
        ⟨((Engine.handle (call.command target)).perform conditions world.broker).2, world.calls, [],
          history⟩ target ((Engine.handle (call.command target)).perform conditions world.broker).1
      rw [hlast]
      exact ⟨rfl, _, rfl, rfl⟩

end TopicBroker.Traffic
