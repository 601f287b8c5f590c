import TopicBroker.Role

/-!
# Settings

What a broker is told before it starts, and which settings it can run with: both roles need workers
and ports, no port may have two roles, and the mailbox of the engine must hold something.
-/

namespace TopicBroker

/-- A count, or a number of seconds. -/
abbrev Quantity := Fin 18446744073709551616

/-- Where the broker listens, and how long it waits for a client and for its end. -/
structure ServerSettings where
  host : String
  port : Port
  acceptTimeout : Quantity
  shutdownGrace : Quantity
  deriving DecidableEq, Repr

structure PoolSettings where
  publisherWorkers : Quantity
  subscriberWorkers : Quantity
  ports : RoleRanges
  deriving DecidableEq, Repr

/-- The seconds that a message without an expiry lives, and how many commands may wait for the
engine. -/
structure BrokerSettings where
  messageTtl : Quantity
  mailboxCapacity : Quantity
  deriving DecidableEq, Repr

/-- Where the store is, and the topics that it has from the start. -/
structure StorageSettings where
  path : String
  seedTopics : List String
  deriving DecidableEq, Repr

structure Settings where
  server : ServerSettings
  pools : PoolSettings
  broker : BrokerSettings
  storage : StorageSettings
  deriving DecidableEq, Repr

namespace Settings

/-- The settings that nobody has to give. -/
def standard : Settings where
  server := ⟨"127.0.0.1", ⟨8080, by decide⟩, ⟨5, by decide⟩, ⟨10, by decide⟩⟩
  pools := ⟨⟨2, by decide⟩, ⟨2, by decide⟩, .standard⟩
  broker := ⟨⟨3600, by decide⟩, ⟨1024, by decide⟩⟩
  storage := ⟨"imq_db", []⟩

/-! ## Validation -/

inductive Defect where
  | noWorkers
  | noPublisherPorts
  | noSubscriberPorts
  | sharedPorts
  | noMailbox
  deriving DecidableEq, Repr

def Defect.message : Defect → String
  | noWorkers => "worker pools must have at least one worker"
  | noPublisherPorts => "publisher port range is empty"
  | noSubscriberPorts => "subscriber port range is empty"
  | sharedPorts => "publisher and subscriber port ranges overlap"
  | noMailbox => "broker mailbox capacity must be positive"

/-- Tells the first defect of settings, if they have one. -/
def defect? (settings : Settings) : Option Defect :=
  let pools := settings.pools
  if pools.publisherWorkers.val = 0 ∨ pools.subscriberWorkers.val = 0 then some .noWorkers
  else if pools.ports.publisher.isEmpty then some .noPublisherPorts
  else if pools.ports.subscriber.isEmpty then some .noSubscriberPorts
  else if pools.ports.publisher.overlaps pools.ports.subscriber then some .sharedPorts
  else if settings.broker.mailboxCapacity.val = 0 then some .noMailbox
  else none

example : standard.defect? = none := by decide

end Settings

end TopicBroker
