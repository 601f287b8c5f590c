import TopicBroker.Server

/-! # Settings that are accepted

Settings are accepted if and only if there are workers, a mailbox and ports for both roles, and no
port has two roles. A server that is built from them then gives every port the role whose range it
lies in. How large the numbers of workers and the mailbox may be is not looked at, so accepted
settings fit the machine only up to the size of its queues. -/

namespace TopicBroker

/-! ## Ranges of ports -/

namespace PortRange

instance : Membership Port PortRange where
  mem range port := range.first ≤ port ∧ port < range.last

variable {range other : PortRange} {port : Port}

theorem contains_iff : range.contains port = true ↔ port ∈ range := by
  simp [contains, Membership.mem]

/-- A range that is not empty has its first port. -/
theorem first_mem (h : range.first < range.last) : range.first ∈ range :=
  ⟨Fin.le_refl _, h⟩

theorem not_isEmpty_iff : ¬ range.isEmpty = true ↔ ∃ port, port ∈ range := by
  simp only [isEmpty, decide_eq_true_eq, Fin.not_le]
  constructor
  · exact fun h => ⟨_, first_mem h⟩
  · rintro ⟨port, hfirst, hlast⟩
    exact Fin.lt_of_le_of_lt hfirst hlast

/-- Two ranges that have ports overlap if and only if they share one: the later of their first
ports, if any. -/
theorem overlaps_iff (h : ∃ port, port ∈ range) (hother : ∃ port, port ∈ other) :
    range.overlaps other = true ↔ ∃ port, port ∈ range ∧ port ∈ other := by
  obtain ⟨port, hfirst, hlast⟩ := h
  obtain ⟨port', hfirst', hlast'⟩ := hother
  simp only [overlaps, Bool.and_eq_true, decide_eq_true_eq]
  constructor
  · rintro ⟨hbefore, hbehind⟩
    rcases Fin.le_total range.first other.first with hle | hle
    · exact ⟨other.first, ⟨hle, hbehind⟩, first_mem (Fin.lt_of_le_of_lt hfirst' hlast')⟩
    · exact ⟨range.first, first_mem (Fin.lt_of_le_of_lt hfirst hlast), hle, hbefore⟩
  · rintro ⟨shared, ⟨hfirst, hlast⟩, hfirst', hlast'⟩
    exact ⟨Fin.lt_of_le_of_lt hfirst hlast', Fin.lt_of_le_of_lt hfirst' hlast⟩

end PortRange

/-! ## Roles of ports -/

namespace RoleRanges

/-- The role of a client if the range of the subscribers is looked at first. -/
def classifySubscribersFirst (ranges : RoleRanges) (port : Port) : Option Role :=
  if ranges.subscriber.contains port then some .subscriber
  else if ranges.publisher.contains port then some .publisher
  else none

/-- A port has the role whose range it lies in, whichever range is looked at first, and both roles
have a port. -/
structure Unambiguous (ranges : RoleRanges) : Prop where
  publisher_iff : ∀ port, ranges.classify port = some .publisher ↔ port ∈ ranges.publisher
  subscriber_iff : ∀ port, ranges.classify port = some .subscriber ↔ port ∈ ranges.subscriber
  exists_publisher : ∃ port, ranges.classify port = some .publisher
  exists_subscriber : ∃ port, ranges.classify port = some .subscriber
  either_order : ∀ port, ranges.classify port = ranges.classifySubscribersFirst port

variable {ranges : RoleRanges}

theorem classify_eq_publisher_iff {port : Port} :
    ranges.classify port = some .publisher ↔ port ∈ ranges.publisher := by
  rw [← PortRange.contains_iff, classify]
  cases ranges.publisher.contains port <;> cases ranges.subscriber.contains port <;> decide

theorem classify_eq_subscriber_iff {port : Port} :
    ranges.classify port = some .subscriber ↔
      port ∉ ranges.publisher ∧ port ∈ ranges.subscriber := by
  rw [← PortRange.contains_iff, ← PortRange.contains_iff, classify]
  cases ranges.publisher.contains port <;> cases ranges.subscriber.contains port <;> decide

theorem classify_eq_classifySubscribersFirst {port : Port}
    (h : ¬ (port ∈ ranges.publisher ∧ port ∈ ranges.subscriber)) :
    ranges.classify port = ranges.classifySubscribersFirst port := by
  rw [← PortRange.contains_iff, ← PortRange.contains_iff] at h
  rw [classify, classifySubscribersFirst]
  cases hpublisher : ranges.publisher.contains port <;>
    cases hsubscriber : ranges.subscriber.contains port <;> simp_all

theorem unambiguous (hpublisher : ∃ port, port ∈ ranges.publisher)
    (hsubscriber : ∃ port, port ∈ ranges.subscriber)
    (happart : ∀ port, ¬ (port ∈ ranges.publisher ∧ port ∈ ranges.subscriber)) :
    ranges.Unambiguous := by
  have hroles : ∀ port, ranges.classify port = some .subscriber ↔ port ∈ ranges.subscriber := by
    intro port
    rw [classify_eq_subscriber_iff, and_iff_right_iff_imp]
    exact fun hmem hother => happart port ⟨hother, hmem⟩
  refine ⟨fun _ => classify_eq_publisher_iff, hroles, ?_, ?_, ?_⟩
  · exact hpublisher.imp fun _ => classify_eq_publisher_iff.mpr
  · exact hsubscriber.imp fun port => (hroles port).mpr
  · exact fun port => classify_eq_classifySubscribersFirst (happart port)

end RoleRanges

/-! ## Validation -/

namespace Settings

/-- Both roles have workers and ports, no port has two roles, and the mailbox holds something. -/
structure Runnable (settings : Settings) : Prop where
  publisherWorkers : 0 < settings.pools.publisherWorkers.val
  subscriberWorkers : 0 < settings.pools.subscriberWorkers.val
  mailbox : 0 < settings.broker.mailboxCapacity.val
  publisherPorts : ∃ port, port ∈ settings.pools.ports.publisher
  subscriberPorts : ∃ port, port ∈ settings.pools.ports.subscriber
  apart : ∀ port, ¬ (port ∈ settings.pools.ports.publisher ∧ port ∈ settings.pools.ports.subscriber)

variable {settings : Settings}

/-- A list of checks finds nothing if the first one does not fail and the others find nothing. -/
theorem ite_some_eq_none_iff {α : Type} {p : Prop} [Decidable p] {a : α} {others : Option α} :
    (if p then some a else others) = none ↔ ¬ p ∧ others = none := by
  split <;> simp [*]

theorem defect?_eq_none_iff : settings.defect? = none ↔ settings.Runnable := by
  simp only [defect?, ite_some_eq_none_iff, not_or, ← Nat.pos_iff_ne_zero,
    PortRange.not_isEmpty_iff]
  constructor
  · rintro ⟨⟨hpublishers, hsubscribers⟩, hpublisher, hsubscriber, happart, hmailbox, -⟩
    rw [PortRange.overlaps_iff hpublisher hsubscriber, not_exists] at happart
    exact ⟨hpublishers, hsubscribers, hmailbox, hpublisher, hsubscriber, happart⟩
  · intro h
    have happart := not_exists.mpr h.apart
    rw [← PortRange.overlaps_iff h.publisherPorts h.subscriberPorts] at happart
    exact ⟨⟨h.publisherWorkers, h.subscriberWorkers⟩, h.publisherPorts, h.subscriberPorts, happart,
      h.mailbox, trivial⟩

/-- Settings are accepted if and only if they can be run, and a server that is built from accepted
ones tells the role of every port from the range it lies in. -/
theorem accepted_iff_runnable (settings : Settings) :
    (settings.defect? = none ↔ settings.Runnable) ∧
    (settings.defect? = none → (ServerPlan.ofSettings settings).ranges.Unambiguous) := by
  refine ⟨defect?_eq_none_iff, fun h => ?_⟩
  have hrunnable := defect?_eq_none_iff.mp h
  exact RoleRanges.unambiguous hrunnable.publisherPorts hrunnable.subscriberPorts hrunnable.apart

/-- The standard ranges lie next to each other. -/
theorem accepted_iff_runnable_standard :
    standard.defect? = none ∧ standard.Runnable ∧
    (ServerPlan.ofSettings standard).ranges.Unambiguous := by
  have haccepted : standard.defect? = none := by decide
  obtain ⟨hiff, hroles⟩ := accepted_iff_runnable standard
  exact ⟨haccepted, hiff.mp haccepted, hroles haccepted⟩

/-! ## Limits of the machine -/

/-- What a server makes room for when it starts is within the limits of the machine: all workers
together are a number that it can hold, and no queue is larger than a queue can be. -/
structure WithinLimits (settings : Settings) : Prop where
  workers : (ServerPlan.ofSettings settings).totalWorkers ≤ Server.countLimit
  mailbox : settings.mailboxCapacity ≤ Server.capacityLimit
  queues : ∀ role, (ServerPlan.ofSettings settings).queueCapacity role ≤ Server.capacityLimit

/-- The settings with other numbers of workers and another mailbox. -/
def withSizes (settings : Settings) (publishers subscribers mailbox : Quantity) : Settings :=
  { settings with
    pools :=
      { settings.pools with publisherWorkers := publishers, subscriberWorkers := subscribers }
    broker := { settings.broker with mailboxCapacity := mailbox } }

/-- Two queues that are not too large have workers that can be counted together. -/
theorem withinLimits_iff :
    settings.WithinLimits ↔
      settings.pools.publisherWorkers.val ≤ Server.capacityLimit ∧
      settings.pools.subscriberWorkers.val ≤ Server.capacityLimit ∧
      settings.broker.mailboxCapacity.val ≤ Server.capacityLimit := by
  have hlimit : 1 ≤ Server.capacityLimit := by decide
  have hdouble : Server.capacityLimit + Server.capacityLimit ≤ Server.countLimit := by decide
  constructor
  · intro h
    exact ⟨(Nat.max_le.mp (h.queues .publisher)).2, (Nat.max_le.mp (h.queues .subscriber)).2,
      (Nat.max_le.mp h.mailbox).2⟩
  · rintro ⟨hpublishers, hsubscribers, hmailbox⟩
    refine ⟨Nat.le_trans (Nat.add_le_add hpublishers hsubscribers) hdouble,
      Nat.max_le.mpr ⟨hlimit, hmailbox⟩, ?_⟩
    rintro (_ | _)
    · exact Nat.max_le.mpr ⟨hlimit, hpublishers⟩
    · exact Nat.max_le.mpr ⟨hlimit, hsubscribers⟩

/-- Whether settings are accepted does not depend on their sizes, as long as none is zero. -/
theorem defect?_withSizes (h : settings.defect? = none)
    (publishers subscribers mailbox : Quantity) :
    (settings.withSizes publishers subscribers mailbox).defect? = none ↔
      0 < publishers.val ∧ 0 < subscribers.val ∧ 0 < mailbox.val := by
  have hkept := defect?_eq_none_iff.mp h
  rw [defect?_eq_none_iff]
  constructor
  · exact fun hsized => ⟨hsized.publisherWorkers, hsized.subscriberWorkers, hsized.mailbox⟩
  · rintro ⟨hpublishers, hsubscribers, hmailbox⟩
    exact ⟨hpublishers, hsubscribers, hmailbox, hkept.publisherPorts, hkept.subscriberPorts,
      hkept.apart⟩

/-- Settings are within the limits of the machine if and only if no size is above that of its
largest queue. Accepted settings need not be: their sizes may be any that are not zero. -/
theorem limits_unchecked (settings : Settings) :
    (settings.WithinLimits ↔
      settings.pools.publisherWorkers.val ≤ Server.capacityLimit ∧
      settings.pools.subscriberWorkers.val ≤ Server.capacityLimit ∧
      settings.broker.mailboxCapacity.val ≤ Server.capacityLimit) ∧
    (settings.defect? = none → ∀ publishers subscribers mailbox : Quantity,
      (settings.withSizes publishers subscribers mailbox).defect? = none ↔
        0 < publishers.val ∧ 0 < subscribers.val ∧ 0 < mailbox.val) :=
  ⟨withinLimits_iff, defect?_withSizes⟩

/-- Settings with as many publisher workers as can be counted are accepted. There is no room for
their queue, and with one subscriber worker more they are not to be counted. -/
theorem not_withinLimits_countless :
    let settings := standard.withSizes (Fin.last _) 1 1024
    settings.defect? = none ∧ ¬ settings.WithinLimits ∧
    Server.capacityLimit < (ServerPlan.ofSettings settings).queueCapacity .publisher ∧
    Server.countLimit < (ServerPlan.ofSettings settings).totalWorkers := by
  intro settings
  have hlarge : Server.capacityLimit < settings.pools.publisherWorkers.val := by decide
  refine ⟨by decide, fun h => ?_, by decide, by decide⟩
  exact absurd (withinLimits_iff.mp h).1 (Nat.not_le.mpr hlarge)

end Settings

end TopicBroker
