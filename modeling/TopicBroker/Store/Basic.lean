import TopicBroker.Store.Row
import TopicBroker.Table

/-!
# The store

What outlives a run of the broker: topics, bindings of publishers, subscriptions, the log of
published messages and the checkpoint of the queues. Bindings and subscriptions refer to topics by
id. The functions here say what each operation does when storage works.
-/

namespace TopicBroker

/-- The tables of the broker. -/
structure Store where
  /-- The ids of the topics by name. -/
  topics : Table String
  /-- The names of the topics by id. -/
  names : Table String
  /-- The topic ids that publishers are bound to; an empty one stands for none. -/
  publishers : Table String
  /-- The subscribers that were ever subscribed. -/
  subscribers : Table Unit
  /-- The subscriptions: a subscriber's key and a topic id. -/
  subscriptions : Table Unit
  /-- The published messages by id, as texts. -/
  log : Table String
  /-- The live messages of the checkpoint, as texts. -/
  live : Table String
  /-- The dead messages of the checkpoint, as texts. -/
  dead : Table String

/-- What the store knows of a publisher. -/
inductive PublisherRecord where
  /-- Nothing. -/
  | missing
  /-- Its binding was taken away. -/
  | unbound
  | bound (topicId : String)
  deriving DecidableEq, Repr

def PublisherRecord.topicId? : PublisherRecord → Option String
  | bound topicId => some topicId
  | _ => none

/-- The messages of a checkpoint by topic, in their order. -/
structure Checkpoint where
  live : Table (List Message)
  dead : Table (List Message)

def Checkpoint.isEmpty (checkpoint : Checkpoint) : Bool :=
  checkpoint.live.rows.isEmpty && checkpoint.dead.rows.isEmpty

namespace Store

/-- The store without rows. -/
def empty : Store where
  topics := .empty
  names := .empty
  publishers := .empty
  subscribers := .empty
  subscriptions := .empty
  log := .empty
  live := .empty
  dead := .empty

/-- The key of a client: its number in twenty places. -/
def clientKey (client : ClientId) : String :=
  String.ofList (Text.paddedInt 20 client.val)

/-- What the keys of a subscriber's subscriptions start with. -/
def subscriberKey (subscriber : ClientId) : String :=
  clientKey subscriber ++ "/"

/-! ## Topics -/

def topicNames (store : Store) : List String :=
  store.topics.keys

def topicId? (store : Store) (name : String) : Option String :=
  store.topics.find? name

/-- Creates a topic with the given id, unless there is one of that name, and tells its id. -/
def insertTopic (name freshId : String) (store : Store) : String × Store :=
  match store.topics.find? name with
  | some id => (id, store)
  | none =>
    (freshId,
      { store with
        topics := store.topics.insert name freshId
        names := store.names.insert freshId name })

/-! ## Publishers -/

def publisher (store : Store) (client : ClientId) : PublisherRecord :=
  match store.publishers.find? (clientKey client) with
  | none => .missing
  | some topicId => if topicId.isEmpty then .unbound else .bound topicId

/-- Binds a publisher to a topic, whatever it was bound to. -/
def bind (client : ClientId) (topicId : String) (store : Store) : Store :=
  { store with publishers := store.publishers.insert (clientKey client) topicId }

/-- Takes the binding of a publisher away, if the publisher is known. -/
def unbind (client : ClientId) (store : Store) : Store :=
  if store.publishers.contains (clientKey client) then store.bind client "" else store

/-! ## Subscribers -/

/-- The names of the topics of a subscriber, in the order of their ids. Subscriptions to a topic
that has no name are passed over. -/
def subscribedTopics (store : Store) (client : ClientId) : List String :=
  (store.subscriptions.keysBehind (subscriberKey client)).filterMap store.names.find?

def addSubscriber (client : ClientId) (store : Store) : Store :=
  { store with subscribers := store.subscribers.insert (clientKey client) () }

def subscribe (client : ClientId) (topicId : String) (store : Store) : Store :=
  { store with subscriptions := store.subscriptions.insert (subscriberKey client ++ topicId) () }

def unsubscribe (client : ClientId) (topicId : String) (store : Store) : Store :=
  { store with subscriptions := store.subscriptions.erase (subscriberKey client ++ topicId) }

/-! ## The log -/

def logMessage (client : ClientId) (topicId : String) (message : Message) (store : Store) : Store :=
  { store with
    log := store.log.insert message.id (Record.toLine (LoggedMessage.of client topicId message)) }

def loggedMessage (store : Store) (messageId : String) :
    Except BrokerError (Option LoggedMessage) :=
  match store.log.find? messageId with
  | none => .ok none
  | some text => (Record.ofLine text).map some

/-! ## The checkpoint -/

/-- The rows of a checkpoint as a table, under their numbers in twenty places. -/
def numberRows (rows : List QueuedMessage) : Table String :=
  rows.zipIdx.foldl
    (fun table (row, i) => table.insert (String.ofList (Text.padded 20 i)) (Record.toLine row)) .empty

/-- The rows of a table in the order of their numbers. -/
def readRows (table : Table String) : Except BrokerError (List QueuedMessage) :=
  table.values.mapM Record.ofLine

/-- Messages by topic, in their order. -/
def groupByTopic (rows : List QueuedMessage) : Table (List Message) :=
  rows.foldl (fun table row => table.alter row.topicId [] (· ++ [row.message])) .empty

def checkpoint (store : Store) : Except BrokerError Checkpoint := do
  let live ← readRows store.live
  let dead ← readRows store.dead
  .ok ⟨groupByTopic live, groupByTopic dead⟩

def saveCheckpoint (live dead : List QueuedMessage) (store : Store) : Store :=
  { store with live := numberRows live, dead := numberRows dead }

def dropCheckpoint (store : Store) : Store :=
  { store with live := .empty, dead := .empty }

end Store

end TopicBroker
