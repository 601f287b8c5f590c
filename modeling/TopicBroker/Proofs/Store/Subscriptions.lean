import Mathlib.Data.List.Basic
import TopicBroker.Proofs.Store.Keys
import TopicBroker.Proofs.Store.Topics

/-! # Subscriptions as sets

A subscription is a row under the key of its subscriber and the id of its topic. As long as the two
tables of topics agree, the rows of a subscriber are a set of topics by name, and no other
subscriber's rows are among them. -/

namespace TopicBroker.Store

/-! ## Rows -/

/-- There is a row for a subscriber and a topic. -/
def HasRow (store : Store) (subscriber : ClientId) (topicId : String) : Prop :=
  (store.subscriptions.find? (subscriberKey subscriber ++ topicId)).isSome

theorem rowKey_inj {subscriber other : ClientId} {topicId otherId : String} :
    subscriberKey subscriber ++ topicId = subscriberKey other ++ otherId ↔
      subscriber = other ∧ topicId = otherId := by
  constructor
  · intro h
    have hlists := congrArg String.toList h
    rw [String.toList_append, String.toList_append] at hlists
    obtain rfl := eq_of_subscriberKey_prefix ⟨topicId.toList, hlists⟩
    exact ⟨rfl, String.toList_inj.mp (List.append_cancel_left hlists)⟩
  · rintro ⟨rfl, rfl⟩
    rfl

/-- No row of a subscriber is behind the key of another one. -/
theorem behind?_rowKey {subscriber other : ClientId} (h : subscriber ≠ other) (topicId : String) :
    Table.behind? (subscriberKey subscriber) (subscriberKey other ++ topicId) = none := by
  rw [Option.eq_none_iff_forall_ne_some]
  intro rest hrest
  exact h (rowKey_inj.mp (Table.behind?_eq_some_iff.mp hrest)).1.symm

theorem hasRow_subscribe {store : Store} {subscriber other : ClientId} {topicId otherId : String} :
    (store.subscribe other otherId).HasRow subscriber topicId ↔
      (subscriber = other ∧ topicId = otherId) ∨ store.HasRow subscriber topicId := by
  simp only [HasRow, subscribe, Table.find?_insert, rowKey_inj]
  by_cases h : subscriber = other ∧ topicId = otherId <;> simp [h]

theorem hasRow_unsubscribe {store : Store} {subscriber other : ClientId}
    {topicId otherId : String} :
    (store.unsubscribe other otherId).HasRow subscriber topicId ↔
      ¬ (subscriber = other ∧ topicId = otherId) ∧ store.HasRow subscriber topicId := by
  simp only [HasRow, unsubscribe, Table.find?_erase, rowKey_inj]
  by_cases h : subscriber = other ∧ topicId = otherId <;> simp [h]

/-! ## Tables that agree -/

/-- The two tables of topics say the same, and every subscription is to a topic that they have. -/
structure Agrees (store : Store) : Prop where
  inverse : ∀ topicId name,
    store.names.find? topicId = some name ↔ store.topicId? name = some topicId
  named : ∀ subscriber topicId, store.HasRow subscriber topicId →
    ∃ name, store.names.find? topicId = some name

theorem Agrees.paired {store : Store} (h : Agrees store) : store.Paired :=
  h.inverse

theorem agrees_empty : Agrees empty where
  inverse := paired_empty
  named _ _ h := by cases h

/-- A subscriber's topics are those that there is a row for. -/
theorem mem_subscribedTopics_iff {store : Store} (h : Agrees store) {subscriber : ClientId}
    {name : String} :
    name ∈ store.subscribedTopics subscriber ↔
      ∃ topicId, store.topicId? name = some topicId ∧ store.HasRow subscriber topicId := by
  simp only [subscribedTopics, List.mem_filterMap, Table.mem_keysBehind_iff, h.inverse, HasRow]
  exact exists_congr fun _ => and_comm

/-- No topic is listed twice, since no two ids have the same name. -/
theorem nodup_subscribedTopics {store : Store} (h : Agrees store) (subscriber : ClientId) :
    (store.subscribedTopics subscriber).Nodup := by
  refine List.Pairwise.filterMap _ ?_ (Table.nodup_keysBehind _ _)
  rintro topicId otherId hne name hname _ hother rfl
  have hknown := (h.inverse topicId name).mp hname
  have hotherKnown := (h.inverse otherId name).mp hother
  exact hne (Option.some.inj (hknown.symm.trans hotherKnown))

/-! ## What changes and what does not -/

theorem Agrees.of_subscriptions {store other : Store} (h : Agrees store)
    (htopics : other.topics = store.topics) (hnames : other.names = store.names)
    (hrows : ∀ subscriber topicId, other.HasRow subscriber topicId →
      store.HasRow subscriber topicId ∨ ∃ name, store.topicId? name = some topicId) :
    Agrees other := by
  refine ⟨?_, ?_⟩
  · intro topicId name
    rw [hnames, topicId?, htopics]
    exact h.inverse topicId name
  · intro subscriber topicId hrow
    rw [hnames]
    rcases hrows subscriber topicId hrow with hrow | ⟨name, hknown⟩
    · exact h.named subscriber topicId hrow
    · exact ⟨name, (h.inverse topicId name).mpr hknown⟩

/-- What is listed depends on three tables only. -/
theorem Agrees.congr {store other : Store} (h : Agrees store)
    (htables : (other.topics, other.names, other.subscriptions) =
      (store.topics, store.names, store.subscriptions)) : Agrees other := by
  obtain ⟨htopics, hnames, hsubscriptions⟩ : _ ∧ _ ∧ _ := by
    simpa only [Prod.mk.injEq] using htables
  refine h.of_subscriptions htopics hnames ?_
  intro subscriber topicId hrow
  rw [HasRow, hsubscriptions] at hrow
  exact .inl hrow

theorem Agrees.subscribe {store : Store} (h : Agrees store) (client : ClientId)
    {name topicId : String} (hknown : store.topicId? name = some topicId) :
    Agrees (store.subscribe client topicId) := by
  refine h.of_subscriptions rfl rfl ?_
  intro subscriber otherId hrow
  rcases hasRow_subscribe.mp hrow with ⟨-, rfl⟩ | hrow
  · exact .inr ⟨name, hknown⟩
  · exact .inl hrow

theorem Agrees.unsubscribe {store : Store} (h : Agrees store) (client : ClientId)
    (topicId : String) : Agrees (store.unsubscribe client topicId) := by
  refine h.of_subscriptions rfl rfl ?_
  intro subscriber otherId hrow
  exact .inl (hasRow_unsubscribe.mp hrow).2

theorem Agrees.topicId?_inj {store : Store} (h : Agrees store) {name other topicId : String}
    (hname : store.topicId? name = some topicId) :
    store.topicId? other = some topicId ↔ other = name := by
  constructor
  · exact fun hother => h.paired.name_unique hother hname
  · rintro rfl
    exact hname

/-- A subscription adds its topic for its subscriber, and nothing else. -/
theorem mem_subscribe_iff {store : Store} (h : Agrees store) (subscriber client : ClientId)
    (name : String) {other topicId : String} (hknown : store.topicId? other = some topicId) :
    name ∈ (store.subscribe client topicId).subscribedTopics subscriber ↔
      (subscriber = client ∧ name = other) ∨ name ∈ store.subscribedTopics subscriber := by
  have hsame : (store.subscribe client topicId).topicId? = store.topicId? := rfl
  rw [mem_subscribedTopics_iff (h.subscribe client hknown), mem_subscribedTopics_iff h, hsame]
  simp only [hasRow_subscribe, ← h.topicId?_inj hknown]
  constructor
  · rintro ⟨id, hid, ⟨hclient, rfl⟩ | hrow⟩
    · exact .inl ⟨hclient, hid⟩
    · exact .inr ⟨id, hid, hrow⟩
  · rintro (⟨hclient, hid⟩ | ⟨id, hid, hrow⟩)
    · exact ⟨topicId, hid, .inl ⟨hclient, rfl⟩⟩
    · exact ⟨id, hid, .inr hrow⟩

/-- The end of a subscription takes its topic from its subscriber, and nothing else. -/
theorem mem_unsubscribe_iff {store : Store} (h : Agrees store) (subscriber client : ClientId)
    (name : String) {other topicId : String} (hknown : store.topicId? other = some topicId) :
    name ∈ (store.unsubscribe client topicId).subscribedTopics subscriber ↔
      ¬ (subscriber = client ∧ name = other) ∧ name ∈ store.subscribedTopics subscriber := by
  have hsame : (store.unsubscribe client topicId).topicId? = store.topicId? := rfl
  rw [mem_subscribedTopics_iff (h.unsubscribe client topicId), mem_subscribedTopics_iff h, hsame]
  simp only [hasRow_unsubscribe, ← h.topicId?_inj hknown]
  constructor
  · rintro ⟨id, hid, hnot, hrow⟩
    refine ⟨?_, id, hid, hrow⟩
    rintro ⟨hclient, hother⟩
    exact hnot ⟨hclient, Option.some.inj (hid.symm.trans hother)⟩
  · rintro ⟨hnot, id, hid, hrow⟩
    refine ⟨id, hid, ?_, hrow⟩
    rintro ⟨hclient, rfl⟩
    exact hnot ⟨hclient, hid⟩

theorem hasRow_insertTopic {store : Store} {name freshId topicId : String}
    {subscriber : ClientId} :
    (store.insertTopic name freshId).2.HasRow subscriber topicId ↔
      store.HasRow subscriber topicId := by
  unfold insertTopic
  split <;> exact Iff.rfl

theorem agrees_insertTopic {store : Store} (h : Agrees store) {name freshId : String}
    (hfresh : store.names.find? freshId = none) : Agrees (store.insertTopic name freshId).2 := by
  have hpaired : (store.insertTopic name freshId).2.Paired := h.paired.insertTopic hfresh
  refine ⟨hpaired, ?_⟩
  intro subscriber topicId hrow
  obtain ⟨other, hother⟩ := h.named subscriber topicId (hasRow_insertTopic.mp hrow)
  have hknown := (h.paired topicId other).mp hother
  exact ⟨other, (hpaired topicId other).mpr (topicId?_insertTopic_of_known hknown name freshId)⟩

/-- A new topic is nobody's yet. -/
theorem subscribedTopics_insertTopic {store : Store} (h : Agrees store) {name freshId : String}
    (hfresh : store.names.find? freshId = none) (subscriber : ClientId) :
    (store.insertTopic name freshId).2.subscribedTopics subscriber =
      store.subscribedTopics subscriber := by
  unfold insertTopic
  cases hname : store.topics.find? name with
  | some topicId => rfl
  | none =>
      refine List.filterMap_congr ?_
      intro topicId hrow
      obtain ⟨other, hother⟩ := h.named subscriber topicId (Table.mem_keysBehind_iff.mp hrow)
      have hne : topicId ≠ freshId := by
        rintro rfl
        cases hother.symm.trans hfresh
      rw [Table.find?_insert, if_neg hne]

theorem subscribedTopics_subscribe_of_ne {store : Store} {subscriber other : ClientId}
    (h : subscriber ≠ other) (topicId : String) :
    (store.subscribe other topicId).subscribedTopics subscriber =
      store.subscribedTopics subscriber := by
  rw [subscribedTopics, subscribe, Table.keysBehind_insert (behind?_rowKey h topicId)]
  rfl

theorem subscribedTopics_unsubscribe_of_ne {store : Store} {subscriber other : ClientId}
    (h : subscriber ≠ other) (topicId : String) :
    (store.unsubscribe other topicId).subscribedTopics subscriber =
      store.subscribedTopics subscriber := by
  rw [subscribedTopics, unsubscribe, Table.keysBehind_erase (behind?_rowKey h topicId)]
  rfl

end TopicBroker.Store
