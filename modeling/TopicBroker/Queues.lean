import TopicBroker.Store.Basic

/-!
# Queues

The messages of every topic that wait for a reader, and those that expired while they waited. A
reader takes the first live message; expired ones in front of it move to the dead list.
-/

namespace TopicBroker

/-- The messages of a topic: those that wait, and those that expired. -/
structure TopicQueue where
  live : List Message
  dead : List Message
  deriving DecidableEq, Repr

/-- How many messages of a topic wait, and how many expired. -/
structure QueueStats where
  live : Nat
  dead : Nat
  deriving DecidableEq, Repr

/-- The queues of all topics that ever had a message, by topic id. -/
abbrev Queues := Table TopicQueue

namespace TopicQueue

/-- The queue without messages. -/
def empty : TopicQueue := ⟨[], []⟩

/-- Sets the expired messages at the front of a list aside behind those that are dead already, and
takes the one behind them. -/
def takeFrom (now : Instant) (dead : List Message) : List Message → Option Message × TopicQueue
  | [] => (none, ⟨[], dead⟩)
  | message :: live =>
    if message.isExpiredAt now then takeFrom now (dead ++ [message]) live
    else (some message, ⟨live, dead⟩)

/-- Sets the expired messages at the front aside, and takes the one behind them. -/
def take (now : Instant) (queue : TopicQueue) : Option Message × TopicQueue :=
  takeFrom now queue.dead queue.live

def stats (queue : TopicQueue) : QueueStats := ⟨queue.live.length, queue.dead.length⟩

end TopicQueue

namespace Queues

def enqueue (topicId : String) (message : Message) (queues : Queues) : Queues :=
  queues.alter topicId .empty fun queue => { queue with live := queue.live ++ [message] }

def retrieve (topicId : String) (now : Instant) (queues : Queues) : Option Message × Queues :=
  match queues.find? topicId with
  | none => (none, queues)
  | some queue =>
    let (message, queue) := queue.take now
    (message, queues.insert topicId queue)

def deadLetters (topicId : String) (queues : Queues) : List Message :=
  ((queues.find? topicId).map (·.dead)).getD []

/-- Puts the messages of a checkpoint in front of those that are there: they are older. -/
def merge (checkpoint : Checkpoint) (queues : Queues) : Queues :=
  let queues := checkpoint.live.rows.foldl
    (fun queues (topicId, messages) => queues.alter topicId .empty fun queue =>
      { queue with live := messages ++ queue.live }) queues
  checkpoint.dead.rows.foldl
    (fun queues (topicId, messages) => queues.alter topicId .empty fun queue =>
      { queue with dead := messages ++ queue.dead }) queues

def stats (queues : Queues) : List (String × QueueStats) :=
  queues.rows.map fun (topicId, queue) => (topicId, queue.stats)

/-- The rows of a list of messages of every topic, numbered by a supply of ids from a number on. -/
def rowsFrom (fresh : Nat → String) (list : TopicQueue → List Message) (start : Nat)
    (queues : Queues) : List Store.QueuedMessage :=
  let messages := queues.rows.flatMap fun (topicId, queue) => (list queue).map fun m => (topicId, m)
  messages.zipIdx.map fun ((topicId, message), i) => ⟨fresh (start + i), topicId, message⟩

/-- The live messages of every topic as rows of a checkpoint. -/
def liveRows (fresh : Nat → String) (queues : Queues) : List Store.QueuedMessage :=
  rowsFrom fresh (·.live) 0 queues

/-- The dead messages of every topic as rows of a checkpoint. -/
def deadRows (fresh : Nat → String) (queues : Queues) : List Store.QueuedMessage :=
  rowsFrom fresh (·.dead) (liveRows fresh queues).length queues

end Queues

end TopicBroker
