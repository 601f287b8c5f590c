import TopicBroker.Queues
import TopicBroker.Span

/-!
# The broker

The state of the broker, and actions on it. An action runs under conditions that it does not choose:
the time, the storage operations that fail, and the ids that are free. An action that fails keeps
what it did to the state before it failed.
-/

namespace TopicBroker

/-- The operations of storage that may fail. -/
inductive StorageOperation where
  | listTopics
  | insertTopic
  | findTopic
  | findPublisher
  | insertPublisher
  | updatePublisher
  | clearPublisher
  | insertMessage
  | listSubscriptions
  | insertSubscriber
  | insertSubscription
  | removeSubscription
  | fetchCheckpoint
  | saveCheckpoint
  | dropCheckpoint
  deriving DecidableEq, Repr

/-- What an action meets. -/
structure Conditions where
  /-- The time. -/
  now : Instant
  /-- The error of a storage operation that fails. Such an operation does nothing else. -/
  fault : StorageOperation → Option BrokerError
  /-- Ids that nothing has yet. -/
  fresh : Nat → String

/-- The commands that the queue engine takes, one after the other. -/
inductive Command where
  | enqueue (topicId : String) (message : Message)
  | retrieve (topicId : String)
  | load
  | flush
  | stats
  | deadLetters (topicId : String)
  deriving DecidableEq, Repr

/-- What the engine answers to a command. -/
abbrev Command.Reply : Command → Type
  | enqueue .. => Unit
  | retrieve _ => Option Message
  | load => Nat
  | flush => Unit
  | stats => List (String × QueueStats)
  | deadLetters _ => List Message

/-- The queue engine: the queues, whether a checkpoint was merged into them, whether the engine
runs, and the commands that were sent to it and that it has not taken yet. -/
structure Engine where
  queues : Queues
  loaded : Bool
  running : Bool
  mailbox : List Command

/-- The engine of a broker that has just started. -/
def Engine.fresh : Engine := ⟨.empty, false, true, []⟩

/-- The state of the broker: its store, its engine, and how long a message without an expiry
lives. -/
structure Broker where
  store : Store
  engine : Engine
  defaultTtl : Span

/-- A broker with nothing in store, for which so many seconds are set. -/
def Broker.fresh (defaultTtl : Nat) : Broker := ⟨.empty, .fresh, .ofTtl defaultTtl⟩

/-- An action on the broker. -/
abbrev Action := ReaderT Conditions (ExceptT BrokerError (StateM Broker))

/-- Runs an action. -/
def Action.perform {α : Type} (action : Action α) (conditions : Conditions) (broker : Broker) :
    Except BrokerError α × Broker :=
  action conditions broker

/-! ## Storage -/

namespace Storage

/-- A storage operation that changes the store, or fails before it does anything. -/
def operate {α : Type} (operation : StorageOperation)
    (step : Store → Except BrokerError α × Store) : Action α := fun conditions broker =>
  match conditions.fault operation with
  | some error => (.error error, broker)
  | none =>
    let (answer, store) := step broker.store
    (answer, { broker with store })

/-- A storage operation that only looks. -/
def look {α : Type} (operation : StorageOperation) (view : Store → α) : Action α :=
  operate operation fun store => (.ok (view store), store)

/-- A storage operation that only changes the store. -/
def change (operation : StorageOperation) (step : Store → Store) : Action Unit :=
  operate operation fun store => (.ok (), step store)

def listTopics : Action (List String) :=
  look .listTopics Store.topicNames

/-- Creates a topic, unless there is one of that name, and tells its id. -/
def insertTopic (name : String) : Action String := do
  let conditions ← read
  operate .insertTopic fun store =>
    let (id, store) := store.insertTopic name (conditions.fresh 0)
    (.ok id, store)

/-- Creates the topics that there are not yet, each with an id of its own. -/
def seedTopics : List String → Action Unit
  | [] => return
  | name :: names => do
    let _ ← insertTopic name
    withReader (fun conditions => { conditions with fresh := fun i => conditions.fresh (i + 1) })
      (seedTopics names)

def findTopic (name : String) : Action (Option String) :=
  look .findTopic (·.topicId? name)

def findPublisher (client : ClientId) : Action PublisherRecord :=
  look .findPublisher (·.publisher client)

/-- Binds a publisher that is not known yet. -/
def insertPublisher (client : ClientId) (topicId : String) : Action Unit :=
  change .insertPublisher (·.bind client topicId)

/-- Binds a publisher that is known. -/
def updatePublisher (client : ClientId) (topicId : String) : Action Unit :=
  change .updatePublisher (·.bind client topicId)

def clearPublisher (client : ClientId) : Action Unit :=
  change .clearPublisher (·.unbind client)

def insertMessage (client : ClientId) (topicId : String) (message : Message) : Action Unit :=
  change .insertMessage (·.logMessage client topicId message)

def listSubscriptions (client : ClientId) : Action (List String) :=
  look .listSubscriptions (·.subscribedTopics client)

def insertSubscriber (client : ClientId) : Action Unit :=
  change .insertSubscriber (·.addSubscriber client)

def insertSubscription (client : ClientId) (topicId : String) : Action Unit :=
  change .insertSubscription (·.subscribe client topicId)

def removeSubscription (client : ClientId) (topicId : String) : Action Unit :=
  change .removeSubscription (·.unsubscribe client topicId)

def fetchCheckpoint : Action Checkpoint :=
  operate .fetchCheckpoint fun store => (store.checkpoint, store)

def saveCheckpoint (live dead : List Store.QueuedMessage) : Action Unit :=
  change .saveCheckpoint (·.saveCheckpoint live dead)

def dropCheckpoint : Action Unit :=
  change .dropCheckpoint (·.dropCheckpoint)

end Storage

end TopicBroker
