import TopicBroker.Broker

/-!
# The queue engine

The engine is the only one to touch the queues. It takes commands one after the other, in the order
in which they were sent, so that callers never meet a queue in between.
-/

namespace TopicBroker.Engine

def modifyQueues (step : Queues → Queues) : Action Unit :=
  modify fun broker => { broker with engine := { broker.engine with
    queues := step broker.engine.queues } }

/-! ## Commands -/

def handleEnqueue (topicId : String) (message : Message) : Action Unit :=
  if topicId.isEmpty then throw (.invalidArgument "topicId cannot be empty")
  else if message.id.isEmpty || message.payload.isEmpty then
    throw (.invalidArgument "message cannot be empty")
  else modifyQueues (·.enqueue topicId message)

def handleRetrieve (topicId : String) : Action (Option Message) := do
  let conditions ← read
  let broker ← get
  let (message, queues) := broker.engine.queues.retrieve topicId conditions.now
  modifyQueues fun _ => queues
  return message

/-- Merges the checkpoint into the queues and drops it, and tells how many live messages it had. This
is done once: the checkpoint counts as merged even if it cannot be dropped afterwards. -/
def handleLoad : Action Nat := do
  if (← get).engine.loaded then
    throw (.failedPrecondition "queue already loaded from storage")
  let checkpoint ← Storage.fetchCheckpoint
  modify fun broker => { broker with engine := { broker.engine with
    queues := broker.engine.queues.merge checkpoint
    loaded := true } }
  Storage.dropCheckpoint
  return checkpoint.live.values.flatten.length

/-- Replaces the checkpoint by the messages of all queues. -/
def handleFlush : Action Unit := do
  let conditions ← read
  let queues := (← get).engine.queues
  Storage.saveCheckpoint (queues.liveRows conditions.fresh) (queues.deadRows conditions.fresh)

/-- Carries a command out. -/
def handle : (command : Command) → Action command.Reply
  | .enqueue topicId message => handleEnqueue topicId message
  | .retrieve topicId => handleRetrieve topicId
  | .load => handleLoad
  | .flush => handleFlush
  | .stats => return (← get).engine.queues.stats
  | .deadLetters topicId => return (← get).engine.queues.deadLetters topicId

/-! ## The mailbox -/

/-- Carries commands out, one after the other, for nobody who waits for an answer. -/
def handleAll : List Command → Action Unit
  | [] => return
  | command :: commands => do
    tryCatch (do let _ ← handle command) fun _ => return
    handleAll commands

/-- Carries out what waits in the mailbox. -/
def catchUp : Action Unit := do
  let waiting := (← get).engine.mailbox
  modify fun broker => { broker with engine := { broker.engine with mailbox := [] } }
  handleAll waiting

/-- Fails if the engine does not run. -/
def ensureRunning : Action Unit := do
  unless (← get).engine.running do throw (.internal "queue engine is not running")

/-- Sends a command and waits for the answer. -/
def call (command : Command) : Action command.Reply := do
  ensureRunning
  catchUp
  handle command

/-- Sends a command without the time to wait for the answer. The engine carries it out as soon as it
is reached again. -/
def send (command : Command) : Action Unit := do
  ensureRunning
  modify fun broker => { broker with engine := { broker.engine with
    mailbox := broker.engine.mailbox ++ [command] } }

/-! ## Calls -/

def enqueue (topicId : String) (message : Message) : Action Unit :=
  call (.enqueue topicId message)

def retrieve (topicId : String) : Action (Option Message) :=
  call (.retrieve topicId)

/-- Merges the checkpoint into the queues, and tells how many live messages it had. -/
def load : Action Nat :=
  call .load

/-- Replaces the checkpoint by the messages of all queues. If the deadline has passed nobody waits
until that is done. -/
def flush (late : Bool) : Action Unit :=
  if late then do
    send .flush
    throw (.deadlineExceeded "queue flush did not finish in time")
  else call .flush

def stats : Action (List (String × QueueStats)) :=
  call .stats

def deadLetters (topicId : String) : Action (List Message) :=
  call (.deadLetters topicId)

/-! ## Starting and stopping -/

/-- Stops the engine at once. What waits in its mailbox is lost, and so are the queues. -/
def kill : Action Unit :=
  modify fun broker => { broker with engine := { Engine.fresh with running := false } }

/-- Lets the engine carry out what waits in its mailbox, and starts a new one on the same store. -/
def restart : Action Unit := do
  if (← get).engine.running then catchUp
  modify fun broker => { broker with engine := .fresh }

end TopicBroker.Engine
