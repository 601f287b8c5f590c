import TopicBroker.Error
import TopicBroker.Settings.Basic

/-!
# The server

What a server is built from: a fixed number of workers for each role, each serving one session after
the other, and for each role a queue of sessions that wait for a worker. Together with the mailbox
of the engine these are the things that a machine has to have room for.
-/

namespace TopicBroker

structure ServerPlan where
  /-- The seconds that the server waits for a client before it looks whether it should stop. -/
  acceptTimeout : Quantity
  publisherWorkers : Quantity
  subscriberWorkers : Quantity
  ranges : RoleRanges
  deriving DecidableEq, Repr

namespace ServerPlan

def ofSettings (settings : Settings) : ServerPlan where
  acceptTimeout := settings.server.acceptTimeout
  publisherWorkers := settings.pools.publisherWorkers
  subscriberWorkers := settings.pools.subscriberWorkers
  ranges := settings.pools.ports

/-- The plan of a server unless settings say otherwise. -/
def standard : ServerPlan := ofSettings .standard

def workers (plan : ServerPlan) : Role → Nat
  | .publisher => plan.publisherWorkers
  | .subscriber => plan.subscriberWorkers

def totalWorkers (plan : ServerPlan) : Nat :=
  plan.workers .publisher + plan.workers .subscriber

/-- How many sessions of a role may wait for a worker. -/
def queueCapacity (plan : ServerPlan) (role : Role) : Nat :=
  max 1 (plan.workers role)

end ServerPlan

/-- How many commands may wait for the engine. -/
def Settings.mailboxCapacity (settings : Settings) : Nat :=
  max 1 settings.broker.mailboxCapacity

namespace Server

def countLimit : Nat := 18446744073709551615

/-- The largest number of things that a queue of the machine can be made for. -/
def capacityLimit : Nat := countLimit / 8

/-- The outcome of stopping a server. The workers stop in any case, but if the deadline has passed
nobody waits until they have. -/
def shutdown (late : Bool) : Except BrokerError Unit :=
  if late then .error (.deadlineExceeded "workers did not drain before the deadline") else .ok ()

end Server

end TopicBroker
