import TopicBroker.Proofs.Registry.Bindings
import TopicBroker.Proofs.Span

/-! # How long messages live

A message that gives no expiry lives for the seconds that are set, from its creation on. The clock
counts them as a span, whatever their number. What the message says of its creation and its expiry
is that far apart, unless the clock stood in a leap second that ends no minute, which is shown as
the second behind it. -/

namespace TopicBroker

namespace Registry

open TopicBroker.Action

/-! ## The times of a draft -/

/-- No time is given: it is left out, or of blanks alone. -/
def NotGiven (time : Option String) : Prop :=
  ∀ raw ∈ time, ∀ c ∈ raw.toList, Text.isBlank c = true

/-- A time is given, in these words. -/
def Gives (time : Option String) (raw : String) : Prop :=
  time = some raw ∧ ∃ c ∈ raw.toList, Text.isBlank c = false

/-- The draft was created at this instant: at the time that it gives, or else now. -/
inductive Created (now : Instant) (draft : Draft) : Instant → Prop where
  | now (left : NotGiven draft.createdAt) : Created now draft now
  | given {raw : String} {created : Instant} (gives : Gives draft.createdAt raw)
      (read : Timestamp.parse raw = .ok created) : Created now draft created

/-- Two times are the same as far as they are given. -/
def Alike (time other : Option String) : Prop :=
  time = other ∨ NotGiven time ∧ NotGiven other

theorem given?_of_notGiven {time : Option String} (h : NotGiven time) : given? time = none := by
  cases time with
  | none => rfl
  | some raw =>
      have hblank : Text.isAllBlank raw = true := List.all_eq_true.mpr (h raw rfl)
      simp [given?, Option.filter, hblank]

theorem given?_of_gives {time : Option String} {raw : String} (h : Gives time raw) :
    given? time = some raw := by
  obtain ⟨rfl, c, hc, hblank⟩ := h
  have hnot : Text.isAllBlank raw = false := by
    simpa [Text.isAllBlank] using ⟨c, hc, hblank⟩
  simp [given?, Option.filter, hnot]

theorem given?_of_alike {time other : Option String} (h : Alike time other) :
    given? time = given? other := by
  rcases h with rfl | ⟨htime, hother⟩
  · rfl
  · rw [given?_of_notGiven htime, given?_of_notGiven hother]

section

variable {now created : Instant} {draft : Draft} {id : String}

theorem Created.creation_eq (h : Created now draft created) : creation now draft = .ok created := by
  cases h with
  | now left => simp [creation, given?_of_notGiven left]
  | given gives read => simp [creation, given?_of_gives gives, read]

/-- A leap second of any other kind is the clock's. -/
theorem Created.eq_now_or_endsMinute (h : Created now draft created) :
    created = now ∨ created.EndsMinute := by
  cases h with
  | now => exact .inl rfl
  | given _ read => exact .inr (Timestamp.endsMinute_of_parse read)

theorem stamp_congr {other : Draft} {ttl : Span} (hdata : other.data = draft.data)
    (hcreated : Alike other.createdAt draft.createdAt)
    (hexpires : Alike other.expiresAt draft.expiresAt) :
    stamp now ttl id other = stamp now ttl id draft := by
  simp only [stamp, creation, expiry, given?_of_alike hcreated, given?_of_alike hexpires, hdata]

/-- A draft whose times cannot be read makes no message. -/
theorem stamp_of_unreadable {raw : String} {ttl : Span}
    (hgives : Gives draft.createdAt raw ∨ Gives draft.expiresAt raw)
    (hread : ∀ t, Timestamp.parse raw ≠ .ok t) :
    ∃ detail, stamp now ttl id draft = .error (.invalidArgument detail) := by
  obtain ⟨error, hparse⟩ : ∃ error, Timestamp.parse raw = .error error := by
    cases hparse : Timestamp.parse raw with
    | error error => exact ⟨error, rfl⟩
    | ok t => exact absurd hparse (hread t)
  have hfails : ∃ cause, stamp now ttl id draft = .error cause := by
    unfold stamp
    rcases hgives with hgives | hgives
    · simp [creation, given?_of_gives hgives, hparse]
    · cases creation now draft with
      | error cause => exact ⟨cause, rfl⟩
      | ok created => simp [expiry, given?_of_gives hgives, hparse]
  obtain ⟨cause, hcause⟩ := hfails
  obtain ⟨detail, rfl⟩ := invalidArgument_of_stamp hcause
  exact ⟨detail, hcause⟩

/-- What is said of a message that would live beyond the last instant. -/
def tooLong : BrokerError := .invalidArgument "message ttl out of range"

theorem stamp_of_tooLong {ttl : Nat} (hcreated : Created now draft created)
    (hleft : NotGiven draft.expiresAt) (h : Instant.latest < created.seconds + ttl) :
    stamp now (.ofTtl ttl) id draft = .error tooLong := by
  have hnone := (created.later?_ofTtl_eq_none_iff ttl).mpr h
  simp [stamp, hcreated.creation_eq, expiry, given?_of_notGiven hleft, hnone, tooLong]

/-- A message that was created at one instant says that it expires at another, which lies a number
of seconds behind. -/
structure Lives (ttl : Nat) (created expires : Instant) (message : Message) : Prop where
  leads : created.later? (.ofTtl ttl) = some expires
  createdAt : Timestamp.parse message.createdAt = .ok created.shown
  expiresAt : Timestamp.parse message.expiresAt = .ok expires.shown
  expired : ∀ now, message.isExpiredAt now = true ↔ expires.shown ≤ now
  /-- So many seconds lie between what it says of the one and of the other. -/
  exact : created.EndsMinute ∨ ttl = 0 → created.shown.later? (.ofTtl ttl) = some expires.shown
  /-- It is one less if it was created in a leap second that ends no minute, and says that it was
  created in the second behind it. -/
  short : ¬ created.EndsMinute → ttl ≠ 0 →
    created.shown.later? (.ofTtl (ttl - 1)) = some expires.shown

theorem exists_stamp {ttl : Nat} (hcreated : Created now draft created)
    (hleft : NotGiven draft.expiresAt) (h : created.seconds + ttl ≤ Instant.latest) :
    ∃ message expires, stamp now (.ofTtl ttl) id draft = .ok message ∧ message.id = id ∧
      message.payload = draft.data ∧ Lives ttl created expires message := by
  have hsome : created.later? (.ofTtl ttl) ≠ none := by
    rw [Ne, Instant.later?_ofTtl_eq_none_iff]
    exact Int.not_lt.mpr h
  obtain ⟨expires, hexpires⟩ := Option.ne_none_iff_exists'.mp hsome
  have hcreation := hcreated.creation_eq
  have hexpiry : expiry created (.ofTtl ttl) draft = .ok expires := by
    simp [expiry, given?_of_notGiven hleft, hexpires]
  have hstamp : stamp now (.ofTtl ttl) id draft =
      .ok ⟨id, draft.data, Timestamp.format created, Timestamp.format expires⟩ := by
    simp [stamp, hcreation, hexpiry]
  have hread := Timestamp.parse_format expires
  refine ⟨_, expires, hstamp, rfl, rfl, ?_⟩
  exact {
    leads := hexpires
    createdAt := Timestamp.parse_format created
    expiresAt := hread
    expired := fun later => by
      rw [Message.isExpiredAt, hread]
      exact decide_eq_true_iff
    exact := Instant.later?_shown hexpires
    short := Instant.later?_shown_of_not_endsMinute hexpires }

end

/-! ## Publishing -/

section

variable {conditions : Conditions} {broker : Broker} {publisher : ClientId} {draft : Draft}
  {topicId : String}

/-- A publisher that is bound puts its message in line before it is logged. -/
theorem perform_publish_bound (hfind : conditions.fault .findPublisher = none)
    (hbound : broker.store.publisher publisher = .bound topicId) :
    (publish publisher draft).perform conditions broker =
      match stamp conditions.now broker.defaultTtl (conditions.fresh 0) draft with
      | .error error => (.error error, broker)
      | .ok message =>
        (do
          Engine.enqueue topicId message
          Storage.insertMessage publisher topicId message
          return message.id : Action String).perform conditions broker := by
  simp only [publish, Storage.findPublisher, perform_bind, Storage.perform_look, hfind, hbound,
    PublisherRecord.topicId?, perform_read, perform_get, perform_liftExcept]
  cases stamp conditions.now broker.defaultTtl (conditions.fresh 0) draft <;> rfl

/-- What an enqueue says that is refused. -/
theorem detail_of_enqueue {message : Message} {detail : String} {next : Broker}
    (h : (Engine.enqueue topicId message).perform conditions broker =
      (.error (.invalidArgument detail), next)) :
    detail = "topicId cannot be empty" ∨ detail = "message cannot be empty" := by
  rw [Engine.enqueue, Engine.perform_call_settled] at h
  split at h
  · simp only [Engine.handle, Engine.handleEnqueue] at h
    split at h
    · cases h
      exact .inl rfl
    · split at h
      · cases h
        exact .inr rfl
      · cases h
  · cases h

/-- A message that was put in line makes a difference. -/
theorem enqueued_ne {before start : Broker} (hstarts : Engine.Starts conditions before start)
    (message : Message) : Engine.mapQueues (·.enqueue topicId message) start ≠ before := by
  intro heq
  cases hstarts with
  | found =>
      have hlive : ((before.engine.queues.enqueue topicId message).topic topicId).live =
          (before.engine.queues.topic topicId).live :=
        congrArg (fun broker : Broker => (broker.engine.queues.topic topicId).live) heq
      rw [Queues.topic_enqueue, if_pos rfl] at hlive
      simp at hlive
  | settled hwaiting =>
      have hmailbox := congrArg (fun broker : Broker => broker.engine.mailbox) heq
      exact hwaiting (hmailbox.symm.trans Engine.mailbox_settled)

/-- A message that is made is put in line if it has data and the engine runs. -/
theorem perform_publish_stamped (hfind : conditions.fault .findPublisher = none)
    (hbound : broker.store.publisher publisher = .bound topicId) {message : Message}
    (hstamp : stamp conditions.now broker.defaultTtl (conditions.fresh 0) draft = .ok message)
    (haccepts : Engine.Accepts topicId message) (hrunning : broker.engine.running = true) :
    ∃ start, Engine.Starts conditions broker start ∧
      ((publish publisher draft).perform conditions broker).2.engine.queues =
        start.engine.queues.enqueue topicId message ∧
      ((publish publisher draft).perform conditions broker).1 =
        (conditions.fault .insertMessage).elim (.ok message.id) .error := by
  have henqueue : (Engine.enqueue topicId message).perform conditions broker = (.ok (),
      Engine.mapQueues (·.enqueue topicId message) (Engine.settled conditions broker)) := by
    rw [Engine.enqueue, Engine.perform_call_settled, if_pos hrunning]
    exact Engine.perform_enqueue_of_accepts conditions _ haccepts
  refine ⟨Engine.settled conditions broker, Engine.starts_settled conditions broker, ?_⟩
  simp only [perform_publish_bound hfind hbound, hstamp, perform_bind, henqueue,
    Storage.insertMessage, Storage.perform_change]
  cases conditions.fault .insertMessage <;> exact ⟨rfl, rfl⟩

end

/-! ## All drafts -/

/-- How the times of a draft decide what publishing it comes to, for a publisher that is bound to a
topic and messages that live for a number of seconds. -/
structure Timed (conditions : Conditions) (broker : Broker) (ttl : Nat) (publisher : ClientId)
    (topicId : String) (draft : Draft) : Prop where
  /-- A time of blanks is as good as none. -/
  blank : ∀ other : Draft, other.data = draft.data → Alike other.createdAt draft.createdAt →
    Alike other.expiresAt draft.expiresAt →
      (publish publisher other).perform conditions broker =
        (publish publisher draft).perform conditions broker
  unreadable : ∀ raw, Gives draft.createdAt raw ∨ Gives draft.expiresAt raw →
    (∀ t, Timestamp.parse raw ≠ .ok t) →
      ∃ detail, (publish publisher draft).perform conditions broker =
        (.error (.invalidArgument detail), broker)
  /-- A message is refused for its lifetime only if it would live beyond the last instant. Then
  nothing changes. -/
  refused : NotGiven draft.expiresAt → ∀ created, Created conditions.now draft created →
    ((publish publisher draft).perform conditions broker = (.error tooLong, broker) ↔
      Instant.latest < created.seconds + ttl)
  /-- No instant is so early that a lifetime for which there is no span would do. -/
  endless : Span.ofTtl? ttl = none →
    ∀ created : Instant, Instant.latest < created.seconds + ttl
  /-- Only the clock may stand in a leap second that ends no minute. -/
  clock : ∀ created, Created conditions.now draft created →
    created = conditions.now ∨ created.EndsMinute
  /-- Any other message with data is put in line, and expires when it has lived for its time. -/
  accepted : NotGiven draft.expiresAt → ∀ created, Created conditions.now draft created →
    created.seconds + ttl ≤ Instant.latest → draft.data ≠ "" →
      conditions.fresh 0 ≠ "" → broker.engine.running = true →
        ∃ start message expires, Engine.Starts conditions broker start ∧
          ((publish publisher draft).perform conditions broker).2.engine.queues =
            start.engine.queues.enqueue topicId message ∧
          ((publish publisher draft).perform conditions broker).1 =
            (conditions.fault .insertMessage).elim (.ok message.id) .error ∧
          message.payload = draft.data ∧ Lives ttl created expires message

section

variable {conditions : Conditions} {broker : Broker} {ttl : Nat} {publisher : ClientId}
  {draft : Draft} {topicId : String}

theorem topicId_ne_empty_of_bound (hbound : broker.store.publisher publisher = .bound topicId) :
    topicId ≠ "" := by
  unfold Store.publisher at hbound
  split at hbound
  · cases hbound
  · split at hbound
    · cases hbound
    · next hne =>
        cases hbound
        simpa using hne

theorem refused_iff (hfind : conditions.fault .findPublisher = none)
    (hbound : broker.store.publisher publisher = .bound topicId)
    (httl : broker.defaultTtl = .ofTtl ttl) (hleft : NotGiven draft.expiresAt) {created : Instant}
    (hcreated : Created conditions.now draft created) :
    (publish publisher draft).perform conditions broker = (.error tooLong, broker) ↔
      Instant.latest < created.seconds + ttl := by
  constructor
  · intro hrefused
    by_contra hin
    obtain ⟨message, hstamp⟩ : ∃ message,
        stamp conditions.now (.ofTtl ttl) (conditions.fresh 0) draft = .ok message := by
      obtain ⟨message, -, hstamp, -⟩ := exists_stamp hcreated hleft (Int.not_lt.mp hin)
      exact ⟨message, hstamp⟩
    simp only [perform_publish_bound hfind hbound, httl, hstamp, perform_bind] at hrefused
    obtain ⟨start, hstarts, henqueue | ⟨error, henqueue⟩⟩ :=
      Engine.exists_starts_enqueue conditions topicId message broker
    · rw [henqueue] at hrefused
      simp only [Storage.insertMessage, Storage.perform_change] at hrefused
      cases hfault : conditions.fault .insertMessage with
      | none => simp [hfault] at hrefused
      | some error =>
          rw [hfault] at hrefused
          exact enqueued_ne hstarts message (congrArg Prod.snd hrefused)
    · rw [henqueue] at hrefused
      obtain ⟨rfl, -⟩ : error = tooLong ∧ start = broker := by simpa using hrefused
      rcases detail_of_enqueue henqueue with h | h <;> simp at h
  · intro hout
    rw [perform_publish_bound hfind hbound, httl, stamp_of_tooLong hcreated hleft hout]

theorem timed_of_bound (hfind : conditions.fault .findPublisher = none)
    (hbound : broker.store.publisher publisher = .bound topicId)
    (httl : broker.defaultTtl = .ofTtl ttl) :
    Timed conditions broker ttl publisher topicId draft where
  blank other hdata hcreated hexpires := by
    simp only [perform_publish_bound hfind hbound, stamp_congr hdata hcreated hexpires]
  unreadable raw hgives hread := by
    obtain ⟨detail, hstamp⟩ : ∃ detail, stamp conditions.now broker.defaultTtl (conditions.fresh 0)
        draft = .error (.invalidArgument detail) := stamp_of_unreadable hgives hread
    exact ⟨detail, by rw [perform_publish_bound hfind hbound, hstamp]⟩
  refused hleft created hcreated := refused_iff hfind hbound httl hleft hcreated
  endless hnone := Instant.latest_lt_of_longest_lt (Span.ofTtl?_eq_none_iff.mp hnone)
  clock created hcreated := hcreated.eq_now_or_endsMinute
  accepted hleft created hcreated hin hdata hid hrunning := by
    obtain ⟨message, expires, hstamp, hmessage, hpayload, hlives⟩ :=
      exists_stamp hcreated hleft hin
    rw [← httl] at hstamp
    have haccepts : Engine.Accepts topicId message :=
      ⟨topicId_ne_empty_of_bound hbound, hmessage ▸ hid, hpayload ▸ hdata⟩
    obtain ⟨start, hstarts, hqueues, hreply⟩ :=
      perform_publish_stamped hfind hbound hstamp haccepts hrunning
    exact ⟨start, message, expires, hstarts, hqueues, hreply, hpayload, hlives⟩

/-- Nothing is said of a draft before the topic of its publisher is found. -/
theorem perform_publish_of_fault {error : BrokerError}
    (hfault : conditions.fault .findPublisher = some error) :
    (publish publisher draft).perform conditions broker = (.error error, broker) := by
  simp only [publish, Storage.findPublisher, perform_bind, Storage.perform_look, hfault]

/-- Whatever the clock and the lifetime are, a message that gives no expiry expires when it has
lived for its time, or is refused because it never would. Only a leap second that ends no minute
costs it a second. -/
theorem lifetimes_exact (conditions : Conditions) (broker : Broker) (ttl : Nat)
    (publisher : ClientId) (topicId : String) (draft : Draft)
    (hbound : broker.store.publisher publisher = .bound topicId)
    (httl : broker.defaultTtl = .ofTtl ttl) :
    (conditions.fault .findPublisher = none →
      Timed conditions broker ttl publisher topicId draft) ∧
    ∀ error, conditions.fault .findPublisher = some error →
      (publish publisher draft).perform conditions broker = (.error error, broker) :=
  ⟨fun hfind => timed_of_bound hfind hbound httl, fun _ hfault => perform_publish_of_fault hfault⟩

end

/-- The clock stands in the leap second at the end of 2016. -/
def lastMoment : Conditions :=
  { Conditions.calm "m" with now := ⟨1483228799, 1250000000, by decide, by decide⟩ }

/-- A broker with a publisher of news, whose messages live for a number of seconds. -/
def newsroom (ttl : Nat) : Broker :=
  .started ((Store.empty.insertTopic "news" "t").2.bind ⟨31, by decide⟩ "t") ttl

theorem lifetimes_exact_lastMoment :
    let draft : Draft := ⟨"hello", some " ", none⟩
    (newsroom 1).store.publisher ⟨31, by decide⟩ = .bound "t" ∧
      (newsroom 1).defaultTtl = .ofTtl 1 ∧
      lastMoment.fault .findPublisher = none ∧
      Timed lastMoment (newsroom 1) 1 ⟨31, by decide⟩ "t" draft ∧
      lastMoment.now.EndsMinute ∧ Created lastMoment.now draft lastMoment.now ∧
      let after := ((publish ⟨31, by decide⟩ draft).perform lastMoment (newsroom 1)).2
      (after.engine.queues.topic "t").live =
        [⟨"m0", "hello", "2016-12-31 23:59:60", "2017-01-01 00:00:00"⟩] := by
  intro draft
  have hbound : (newsroom 1).store.publisher ⟨31, by decide⟩ = .bound "t" := by decide +kernel
  have hfind : lastMoment.fault .findPublisher = none := rfl
  have hblank : NotGiven draft.createdAt := by
    intro raw hraw
    obtain rfl := Option.some.inj hraw
    have hall : Text.isAllBlank " " = true := by decide +kernel
    exact List.all_eq_true.mp hall
  exact ⟨hbound, rfl, hfind,
    (lifetimes_exact lastMoment (newsroom 1) 1 _ "t" draft hbound rfl).1 hfind, by decide,
    .now hblank, by decide +kernel⟩

/-- The clock stands in the middle of a leap second where no minute ends. -/
def midMinute : Conditions :=
  { Conditions.calm "m" with now := Timestamp.midMinute }

/-- Storage does not find publishers. -/
def lookupFails : Conditions :=
  { Conditions.calm "m" with
    fault := fun operation =>
      if operation = .findPublisher then some (.internal "no publishers") else none }

/-- The expiry of a message that is to live for a minute lies 59 seconds behind its creation, and the
message expires then. What is wrong with a draft is not said if its publisher is not looked up. -/
theorem not_exact_midMinute :
    (∃ message created expires,
      let after := ((publish ⟨31, by decide⟩ ⟨"hello", none, none⟩).perform midMinute
        (newsroom 60)).2
      (after.engine.queues.topic "t").live = [message] ∧
      Timestamp.parse message.createdAt = .ok created ∧ created.seconds = 31 ∧
      Timestamp.parse message.expiresAt = .ok expires ∧ expires.seconds = 90 ∧
      message.isExpiredAt expires = true ∧ created.later? (.ofTtl 60) ≠ some expires) ∧
    ((publish ⟨31, by decide⟩ ⟨"hello", some "tomorrow", none⟩).perform lookupFails
      (newsroom 60)).1 = .error (.internal "no publishers") := by
  refine ⟨⟨⟨"m0", "hello", "1970-01-01 00:00:31", "1970-01-01 00:01:30"⟩,
    ⟨31, 0, by decide, by decide⟩, ⟨90, 0, by decide, by decide⟩, by decide +kernel, rfl, rfl, rfl,
    rfl, by decide +kernel, by decide⟩, rfl⟩

end Registry

end TopicBroker
