import TopicBroker.Proofs.Table
import TopicBroker.Store.Basic

/-! # Topics have a name and an id

Of the two tables of topics, each is the other one read the other way. A topic is created under an
id that is new, and a name that is known keeps its id. -/

namespace TopicBroker.Store

/-- Names and ids of topics belong together one to one. -/
def Paired (store : Store) : Prop :=
  ∀ topicId name, store.names.find? topicId = some name ↔ store.topicId? name = some topicId

theorem paired_empty : Paired empty :=
  fun _ _ => iff_of_false nofun nofun

/-- No two names share an id. -/
theorem Paired.name_unique {store : Store} (h : store.Paired) {name other topicId : String}
    (hname : store.topicId? name = some topicId) (hother : store.topicId? other = some topicId) :
    name = other := by
  have hnamed := (h topicId name).mpr hname
  exact Option.some.inj (hnamed.symm.trans ((h topicId other).mpr hother))

/-! ## One topic -/

/-- A name that is known is answered with its id. -/
theorem insertTopic_of_known {store : Store} {name topicId : String}
    (h : store.topicId? name = some topicId) (freshId : String) :
    store.insertTopic name freshId = (topicId, store) := by
  rw [topicId?] at h
  simp [insertTopic, h]

theorem topicId?_insertTopic (store : Store) (name freshId other : String) :
    (store.insertTopic name freshId).2.topicId? other =
      if other = name then some (store.insertTopic name freshId).1 else store.topicId? other := by
  unfold insertTopic
  split
  · next topicId hknown =>
      split
      · next hother => rw [hother, topicId?, hknown]
      · rfl
  · exact Table.find?_insert _ _ _ _

theorem topicId?_insertTopic_of_known {store : Store} {other topicId : String}
    (h : store.topicId? other = some topicId) (name freshId : String) :
    (store.insertTopic name freshId).2.topicId? other = some topicId := by
  rw [topicId?_insertTopic]
  split
  · next hother => rw [← hother, insertTopic_of_known h]
  · exact h

/-- An id is new to the names only if it is the one at hand. -/
theorem find?_names_insertTopic {store : Store} {name freshId topicId other : String}
    (h : (store.insertTopic name freshId).2.names.find? topicId = some other) :
    store.names.find? topicId = some other ∨ topicId = freshId := by
  unfold insertTopic at h
  split at h
  · exact .inl h
  · rw [Table.find?_insert] at h
    split at h
    · next hid => exact .inr hid
    · exact .inl h

theorem Paired.insertTopic {store : Store} (h : store.Paired) {name freshId : String}
    (hfresh : store.names.find? freshId = none) : (store.insertTopic name freshId).2.Paired := by
  unfold Store.insertTopic
  cases hname : store.topics.find? name with
  | some topicId => exact h
  | none =>
      intro topicId other
      have hinverse := h topicId other
      rw [topicId?] at hinverse
      simp only [topicId?, Table.find?_insert]
      by_cases hid : topicId = freshId
      · subst hid
        by_cases hother : other = name
        · simp [hother]
        · have hunknown : store.topics.find? other ≠ some topicId := by
            rw [Ne, ← hinverse, hfresh]
            exact nofun
          simp [hother, Ne.symm hother, hunknown]
      · by_cases hother : other = name
        · subst hother
          simp [hid, Ne.symm hid, hinverse, hname]
        · simp [hid, hother, hinverse]

/-! ## Several topics -/

/-- Creates the topics that there are not yet, each with an id of its own. -/
def seed : List String → (Nat → String) → Store → Store
  | [], _, store => store
  | name :: names, fresh, store =>
    seed names (fun i => fresh (i + 1)) (store.insertTopic name (fresh 0)).2

/-- The ids at hand for a number of topics. -/
def idsFor (count : Nat) (fresh : Nat → String) : List String :=
  (List.range count).map fresh

theorem idsFor_succ (count : Nat) (fresh : Nat → String) :
    idsFor (count + 1) fresh = fresh 0 :: idsFor count fun i => fresh (i + 1) := by
  simp [idsFor, List.range_succ_eq_map, Function.comp_def]

/-- Topics that are known are not created again. -/
theorem seed_of_known {names : List String} {store : Store}
    (h : ∀ name ∈ names, (store.topicId? name).isSome) (fresh : Nat → String) :
    store.seed names fresh = store := by
  induction names generalizing fresh with
  | nil => rfl
  | cons name names ih =>
      obtain ⟨hname, hnames⟩ := List.forall_mem_cons.mp h
      obtain ⟨topicId, hknown⟩ := Option.isSome_iff_exists.mp hname
      rw [seed, insertTopic_of_known hknown]
      exact ih hnames _

theorem topicId?_seed_of_known {names : List String} {store : Store} {other topicId : String}
    (h : store.topicId? other = some topicId) (fresh : Nat → String) :
    (store.seed names fresh).topicId? other = some topicId := by
  induction names generalizing store fresh with
  | nil => exact h
  | cons name names ih => exact ih (topicId?_insertTopic_of_known h name (fresh 0)) _

theorem isSome_topicId?_seed {names : List String} {store : Store} {fresh : Nat → String}
    {other : String} :
    ((store.seed names fresh).topicId? other).isSome ↔
      other ∈ names ∨ (store.topicId? other).isSome := by
  induction names generalizing store fresh with
  | nil => simp [seed]
  | cons name names ih =>
      rw [seed, ih, topicId?_insertTopic, List.mem_cons]
      by_cases hother : other = name
      · simp [hother]
      · simp [hother]

theorem find?_names_seed {names : List String} {store : Store} {fresh : Nat → String}
    {topicId other : String} (h : (store.seed names fresh).names.find? topicId = some other) :
    (∃ name, store.names.find? topicId = some name) ∨ topicId ∈ idsFor names.length fresh := by
  induction names generalizing store fresh with
  | nil => exact .inl ⟨other, h⟩
  | cons name names ih =>
      rw [List.length_cons, idsFor_succ, List.mem_cons]
      rcases ih h with ⟨last, hlast⟩ | hmem
      · rcases find?_names_insertTopic hlast with hknown | hfresh
        · exact .inl ⟨last, hknown⟩
        · exact .inr (.inl hfresh)
      · exact .inr (.inr hmem)

theorem Paired.seed {names : List String} {store : Store} {fresh : Nat → String}
    (h : store.Paired) (hnodup : (idsFor names.length fresh).Nodup)
    (hfresh : ∀ topicId ∈ idsFor names.length fresh, store.names.find? topicId = none) :
    (store.seed names fresh).Paired := by
  induction names generalizing store fresh with
  | nil => exact h
  | cons name names ih =>
      rw [List.length_cons, idsFor_succ] at hnodup hfresh
      obtain ⟨hfirst, hrest⟩ := List.forall_mem_cons.mp hfresh
      obtain ⟨hnot, hnodup⟩ := List.nodup_cons.mp hnodup
      refine ih (h.insertTopic hfirst) hnodup ?_
      intro topicId hmem
      by_contra hknown
      obtain ⟨other, hother⟩ := Option.ne_none_iff_exists'.mp hknown
      rcases find?_names_insertTopic hother with hbefore | rfl
      · cases (hrest topicId hmem).symm.trans hbefore
      · exact hnot hmem

/-- The names are told in the order of their bytes, each once. -/
theorem pairwise_topicNames (store : Store) : store.topicNames.Pairwise Precedes :=
  List.pairwise_map.mpr store.topics.sorted

theorem mem_topicNames_iff {store : Store} {name : String} :
    name ∈ store.topicNames ↔ (store.topicId? name).isSome :=
  Table.mem_keys_iff

end TopicBroker.Store
