import TopicBroker.Record.Json
import TopicBroker.Settings.Basic

/-!
# Layers of settings

A layer gives some of the settings, and is laid over others key by key: whatever it does not give
stays as it is. A section that is left out gives nothing.
-/

namespace TopicBroker

open Record

structure ServerLayer where
  host : Option String
  port : Option Port
  acceptTimeout : Option Quantity
  shutdownGrace : Option Quantity
  deriving DecidableEq, Repr

structure PoolLayer where
  publisherWorkers : Option Quantity
  subscriberWorkers : Option Quantity
  publisherFirst : Option Port
  publisherLast : Option Port
  subscriberFirst : Option Port
  subscriberLast : Option Port
  deriving DecidableEq, Repr

structure BrokerLayer where
  messageTtl : Option Quantity
  mailboxCapacity : Option Quantity
  deriving DecidableEq, Repr

structure StorageLayer where
  path : Option String
  seedTopics : Option (List String)
  deriving DecidableEq, Repr

structure Layer where
  server : ServerLayer
  pools : PoolLayer
  broker : BrokerLayer
  storage : StorageLayer
  deriving DecidableEq, Repr

namespace Layer

/-- The layer that gives nothing. -/
def empty : Layer :=
  ⟨⟨none, none, none, none⟩, ⟨none, none, none, none, none, none⟩, ⟨none, none⟩, ⟨none, none⟩⟩

def applyTo (layer : Layer) (base : Settings) : Settings where
  server :=
    { host := layer.server.host.getD base.server.host
      port := layer.server.port.getD base.server.port
      acceptTimeout := layer.server.acceptTimeout.getD base.server.acceptTimeout
      shutdownGrace := layer.server.shutdownGrace.getD base.server.shutdownGrace }
  pools :=
    { publisherWorkers := layer.pools.publisherWorkers.getD base.pools.publisherWorkers
      subscriberWorkers := layer.pools.subscriberWorkers.getD base.pools.subscriberWorkers
      ports :=
        { publisher :=
            { first := layer.pools.publisherFirst.getD base.pools.ports.publisher.first
              last := layer.pools.publisherLast.getD base.pools.ports.publisher.last }
          subscriber :=
            { first := layer.pools.subscriberFirst.getD base.pools.ports.subscriber.first
              last := layer.pools.subscriberLast.getD base.pools.ports.subscriber.last } } }
  broker :=
    { messageTtl := layer.broker.messageTtl.getD base.broker.messageTtl
      mailboxCapacity := layer.broker.mailboxCapacity.getD base.broker.mailboxCapacity }
  storage :=
    { path := layer.storage.path.getD base.storage.path
      seedTopics := layer.storage.seedTopics.getD base.storage.seedTopics }

@[simp] theorem empty_applyTo (base : Settings) : empty.applyTo base = base := rfl

end Layer

/-! ## Layers as records -/

abbrev portField (name : String) : Field Leaf.Value := .nullable name (.integer .nat16)

abbrev secondsField (name : String) : Field Leaf.Value := .nullable name (.integer .nat64)

abbrev countField (name : String) : Field Leaf.Value := .nullable name (.integer .count)

instance : Flat ServerLayer where
  schema :=
    ⟨"PartialServerSettings",
      [.nullable "host" .text, portField "port", secondsField "accept_timeout_secs",
        secondsField "shutdown_grace_secs"]⟩
  toRow x :=
    (x.host, x.port.map IntRange.ofFin, x.acceptTimeout.map IntRange.ofFin,
      x.shutdownGrace.map IntRange.ofFin, ())
  ofRow := fun (host, port, acceptTimeout, shutdownGrace, ()) =>
    ⟨host, port.map IntRange.toFin, acceptTimeout.map IntRange.toFin,
      shutdownGrace.map IntRange.toFin⟩
  ofRow_toRow x := by simp [Function.comp_def]

instance : Flat PoolLayer where
  schema :=
    ⟨"PartialPoolSettings",
      [countField "publisher_workers", countField "subscriber_workers",
        portField "publisher_port_start", portField "publisher_port_end",
        portField "subscriber_port_start", portField "subscriber_port_end"]⟩
  toRow x :=
    (x.publisherWorkers.map IntRange.ofFin, x.subscriberWorkers.map IntRange.ofFin,
      x.publisherFirst.map IntRange.ofFin, x.publisherLast.map IntRange.ofFin,
      x.subscriberFirst.map IntRange.ofFin, x.subscriberLast.map IntRange.ofFin, ())
  ofRow := fun (publisherWorkers, subscriberWorkers, publisherFirst, publisherLast,
      subscriberFirst, subscriberLast, ()) =>
    ⟨publisherWorkers.map IntRange.toFin, subscriberWorkers.map IntRange.toFin,
      publisherFirst.map IntRange.toFin, publisherLast.map IntRange.toFin,
      subscriberFirst.map IntRange.toFin, subscriberLast.map IntRange.toFin⟩
  ofRow_toRow x := by simp [Function.comp_def]

instance : Flat BrokerLayer where
  schema :=
    ⟨"PartialBrokerSettings", [secondsField "message_ttl_secs", countField "mailbox_capacity"]⟩
  toRow x := (x.messageTtl.map IntRange.ofFin, x.mailboxCapacity.map IntRange.ofFin, ())
  ofRow := fun (messageTtl, mailboxCapacity, ()) =>
    ⟨messageTtl.map IntRange.toFin, mailboxCapacity.map IntRange.toFin⟩
  ofRow_toRow x := by simp [Function.comp_def]

instance : Flat StorageLayer where
  schema := ⟨"PartialStorageSettings", [.nullable "path" .text, .nullable "seed_topics" .texts]⟩
  toRow x := (x.path, x.seedTopics, ())
  ofRow := fun (path, seedTopics, ()) => ⟨path, seedTopics⟩

abbrev sectionField (name : String) (schema : FlatSchema) : Field Kind.Value :=
  .nullable name (.record schema)

instance : Structured Layer where
  shape :=
    ⟨"PartialSettings",
      [sectionField "server" (Flat.schema ServerLayer), sectionField "pools" (Flat.schema PoolLayer),
        sectionField "broker" (Flat.schema BrokerLayer),
        sectionField "storage" (Flat.schema StorageLayer)]⟩
  toRow x :=
    (some (Flat.toRow x.server), some (Flat.toRow x.pools), some (Flat.toRow x.broker),
      some (Flat.toRow x.storage), ())
  ofRow := fun (server, pools, broker, storage, ()) =>
    ⟨(server.map Flat.ofRow).getD Layer.empty.server, (pools.map Flat.ofRow).getD Layer.empty.pools,
      (broker.map Flat.ofRow).getD Layer.empty.broker,
      (storage.map Flat.ofRow).getD Layer.empty.storage⟩
  ofRow_toRow x := by simp [Flat.ofRow_toRow]

end TopicBroker
