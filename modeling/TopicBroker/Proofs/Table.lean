import Mathlib.Data.List.Nodup
import TopicBroker.Table

/-! # Laws of tables -/

namespace TopicBroker.Table

variable {α : Type}

/-! ## Look-up -/

theorem lookup_row (key : String) (row : String × α) (rows : List (String × α)) :
    (row :: rows).lookup key = if key = row.1 then some row.2 else rows.lookup key := by
  obtain ⟨first, value⟩ := row
  by_cases h : key = first <;> simp [List.lookup_cons, h, beq_eq_false_iff_ne.mpr]

theorem lookup_eq_none_of_not_mem {key : String} {rows : List (String × α)}
    (h : key ∉ rows.map Prod.fst) : rows.lookup key = none := by
  simp only [List.lookup_eq_none_iff, bne_iff_ne]
  rintro row hrow rfl
  exact h (List.mem_map_of_mem hrow)

/-- A key in front of all keys is not among them. -/
theorem lookup_eq_none_of_precedes {key : String} {rows : List (String × α)}
    (h : ∀ row ∈ rows, Precedes key row.1) : rows.lookup key = none := by
  simp only [List.lookup_eq_none_iff, bne_iff_ne]
  intro row hrow
  exact (h row hrow).ne

theorem lookup_insertRow (key other : String) (value : α) (rows : List (String × α)) :
    (insertRow key value rows).lookup other =
      if other = key then some value else rows.lookup other := by
  induction rows with
  | nil => simp [insertRow, lookup_row]
  | cons row rows ih =>
      unfold insertRow
      split
      · next hkey => by_cases h : other = key <;> simp [lookup_row, h, ← hkey]
      · split
        · simp [lookup_row]
        · next hkey _ =>
            rw [lookup_row, lookup_row, ih]
            by_cases hrow : other = row.1
            · have hother : other ≠ key := fun h => hkey (h.symm.trans hrow)
              simp [hrow, hrow ▸ hother]
            · simp [hrow]

theorem find?_insert (table : Table α) (key other : String) (value : α) :
    (table.insert key value).find? other =
      if other = key then some value else table.find? other :=
  lookup_insertRow key other value table.rows

theorem find?_alter (table : Table α) (key other : String) (fresh : α) (change : α → α) :
    (table.alter key fresh change).find? other =
      if other = key then some (change ((table.find? key).getD fresh)) else table.find? other :=
  find?_insert table key other _

/-- The rows are exactly what look-up finds, since no two rows share a key. -/
theorem mem_rows_iff (table : Table α) (key : String) (value : α) :
    (key, value) ∈ table.rows ↔ table.find? key = some value := by
  obtain ⟨rows, hsorted⟩ := table
  change _ ↔ rows.lookup key = some value
  induction rows with
  | nil => simp
  | cons row rows ih =>
      obtain ⟨hrow, hrows⟩ := List.pairwise_cons.mp hsorted
      rw [lookup_row, List.mem_cons]
      by_cases hkey : key = row.1
      · have hnot : (key, value) ∉ rows := fun h => (hrow _ h).ne hkey.symm
        simp [hkey, hkey ▸ hnot, Prod.ext_iff, eq_comm]
      · simp [hkey, Prod.ext_iff, ih hrows]

/-- Two tables in which the same is found are the same: the order of the rows is that of their keys,
whatever the order in which they came. -/
theorem ext_find? {table other : Table α} (h : ∀ key, table.find? key = other.find? key) :
    table = other := by
  have hmem : ∀ row, row ∈ table.rows ↔ row ∈ other.rows := by
    rintro ⟨key, value⟩
    rw [mem_rows_iff, mem_rows_iff, h]
  have hnodup (t : Table α) : t.rows.Nodup :=
    t.sorted.imp fun hlt heq => hlt.ne (congrArg Prod.fst heq)
  have hperm := (List.perm_ext_iff_of_nodup (hnodup table) (hnodup other)).mpr hmem
  have hrows : table.rows = other.rows := by
    refine hperm.eq_of_pairwise ?_ table.sorted other.sorted
    intro row last _ _ hlt hgt
    exact absurd (hlt.trans hgt) (Precedes.irrefl _)
  obtain ⟨rows, hsorted⟩ := table
  obtain ⟨others, hothers⟩ := other
  obtain rfl : rows = others := hrows
  rfl

/-- Changes under different keys do not meet. -/
theorem alter_comm (table : Table α) {key other : String} (h : key ≠ other) (fresh : α)
    (change changeOther : α → α) :
    (table.alter key fresh change).alter other fresh changeOther =
      (table.alter other fresh changeOther).alter key fresh change := by
  refine ext_find? fun name => ?_
  simp only [find?_alter, h, h.symm, if_false]
  by_cases hkey : name = key
  · simp [hkey, h]
  · simp [hkey]

/-- The order in which changes are made to rows of different keys does not matter. -/
theorem foldl_alter_of_perm {β : Type} (fresh : α) (change : β → α → α)
    {entries others : List (String × β)} (hperm : entries.Perm others)
    (hkeys : (entries.map (·.1)).Nodup) (table : Table α) :
    entries.foldl (fun table entry => table.alter entry.1 fresh (change entry.2)) table =
      others.foldl (fun table entry => table.alter entry.1 fresh (change entry.2)) table := by
  refine hperm.foldl_eq' ?_ table
  intro entry hentry last hlast table
  by_cases h : entry = last
  · rw [h]
  · exact alter_comm table (fun hkey => h (List.inj_on_of_nodup_map hkeys hentry hlast hkey)) _ _ _

theorem contains_foldl_alter {β : Type} (fresh : α) (change : β → α → α)
    (entries : List (String × β)) (table : Table α) (key : String) :
    (entries.foldl (fun table entry => table.alter entry.1 fresh (change entry.2)) table).contains
        key = true ↔ table.contains key = true ∨ key ∈ entries.map (·.1) := by
  induction entries generalizing table with
  | nil => simp
  | cons entry entries ih =>
      rw [List.foldl_cons, ih, contains, find?_alter, List.map_cons, List.mem_cons]
      by_cases h : key = entry.1
      · simp [h]
      · simp [h, contains]

theorem find?_erase (table : Table α) (key other : String) :
    (table.erase key).find? other = if other = key then none else table.find? other := by
  ext value
  rw [← mem_rows_iff, erase, List.mem_filter, mem_rows_iff]
  by_cases h : other = key <;> simp [h]

/-- Erasing a row that is not there leaves the table as it is. -/
theorem erase_of_find?_eq_none {table : Table α} {key : String} (h : table.find? key = none) :
    table.erase key = table := by
  have hrows : table.rows.filter (·.1 ≠ key) = table.rows := by
    refine List.filter_eq_self.mpr ?_
    intro row hrow
    have hfound := (mem_rows_iff table row.1 row.2).mp hrow
    refine decide_eq_true ?_
    rintro rfl
    cases h.symm.trans hfound
  obtain ⟨rows, hsorted⟩ := table
  simpa [erase] using hrows

theorem mem_keys_iff {table : Table α} {key : String} :
    key ∈ table.keys ↔ (table.find? key).isSome := by
  rw [keys, List.mem_map, Option.isSome_iff_exists]
  constructor
  · rintro ⟨⟨_, value⟩, hrow, rfl⟩
    exact ⟨value, (mem_rows_iff table _ value).mp hrow⟩
  · rintro ⟨value, hfound⟩
    exact ⟨(key, value), (mem_rows_iff table key value).mpr hfound, rfl⟩

theorem nodup_keys (table : Table α) : table.keys.Nodup :=
  List.pairwise_map.mpr (table.sorted.imp fun h => h.ne)

/-! ## Keys that start with a text -/

/-- The rest of a key behind a text, if it starts with it. -/
def behind? (start key : String) : Option String :=
  if start.toList.isPrefixOf key.toList then some (String.ofList (key.toList.drop start.length))
  else none

theorem behind?_eq_some_iff {start key rest : String} :
    behind? start key = some rest ↔ key = start ++ rest := by
  unfold behind?
  constructor
  · intro h
    split at h
    · next hstart =>
        obtain ⟨cs, hcs⟩ := List.isPrefixOf_iff_prefix.mp hstart
        obtain rfl := Option.some.inj h
        rw [← String.toList_inj, String.toList_append, String.toList_ofList, ← hcs]
        simp [← String.length_toList]
    · cases h
  · rintro rfl
    simp [← String.length_toList]

theorem mem_keysBehind_iff {table : Table α} {start rest : String} :
    rest ∈ table.keysBehind start ↔ (table.find? (start ++ rest)).isSome := by
  rw [keysBehind, List.mem_filterMap, ← mem_keys_iff]
  constructor
  · rintro ⟨key, hkey, hrest⟩
    rwa [← behind?_eq_some_iff.mp hrest]
  · intro hkey
    exact ⟨_, hkey, behind?_eq_some_iff.mpr rfl⟩

theorem nodup_keysBehind (table : Table α) (start : String) : (table.keysBehind start).Nodup := by
  refine List.Pairwise.filterMap _ ?_ (nodup_keys table)
  rintro key other hne rest hkey _ hother rfl
  exact hne ((behind?_eq_some_iff.mp hkey).trans (behind?_eq_some_iff.mp hother).symm)

/-- A row whose key starts otherwise is not seen. -/
theorem keysBehind_insert {table : Table α} {start key : String} (h : behind? start key = none)
    (value : α) : (table.insert key value).keysBehind start = table.keysBehind start := by
  have hrows (rows : List (String × α)) :
      ((insertRow key value rows).map (·.1)).filterMap (behind? start) =
        (rows.map (·.1)).filterMap (behind? start) := by
    induction rows with
    | nil => simp [insertRow, h]
    | cons row rows ih =>
        unfold insertRow
        split
        · next hkey => simp [hkey]
        · split
          · simp [h]
          · simp only [List.map_cons, List.filterMap_cons, ih]
  exact hrows table.rows

theorem keysBehind_erase {table : Table α} {start key : String} (h : behind? start key = none) :
    (table.erase key).keysBehind start = table.keysBehind start := by
  have hrows (rows : List (String × α)) :
      ((rows.filter (·.1 ≠ key)).map (·.1)).filterMap (behind? start) =
        (rows.map (·.1)).filterMap (behind? start) := by
    induction rows with
    | nil => rfl
    | cons row rows ih =>
        by_cases hrow : row.1 = key
        · rw [List.filter_cons_of_neg (by simpa using hrow), ih, List.map_cons, List.filterMap_cons,
            hrow, h]
        · rw [List.filter_cons_of_pos (by simpa using hrow), List.map_cons, List.map_cons,
            List.filterMap_cons, List.filterMap_cons, ih]
  exact hrows table.rows

/-! ## Order -/

/-- A row behind all others goes to the end. -/
theorem insertRow_of_last (key : String) (value : α) (rows : List (String × α))
    (h : ∀ row ∈ rows, Precedes row.1 key) :
    insertRow key value rows = rows ++ [(key, value)] := by
  induction rows with
  | nil => rfl
  | cons row rows ih =>
      have hrow : Precedes row.1 key := h row (by simp)
      have hnot : ¬ Precedes key row.1 := fun hlt => Precedes.irrefl _ (hrow.trans hlt)
      have hrest := ih fun r hr => h r (by simp [hr])
      simp [insertRow, hrow.ne.symm, hnot, hrest]

end TopicBroker.Table
