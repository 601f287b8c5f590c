import TopicBroker.Text.Utf8

/-!
# Tables

Rows under distinct texts, in the order of the bytes of these keys. Tables are what the store is
made of; the order is the one in which a walk over a table meets its rows.
-/

namespace TopicBroker

/-! ## The order of keys -/

/-- The bytes of the first key come before those of the second. -/
def Precedes (k l : String) : Prop :=
  Utf8.encode k < Utf8.encode l

instance (k l : String) : Decidable (Precedes k l) :=
  inferInstanceAs (Decidable (Utf8.encode k < Utf8.encode l))

theorem Utf8.encode_injective {k l : String} (h : Utf8.encode k = Utf8.encode l) : k = l := by
  apply String.toByteArray_inj.mp
  simpa [Utf8.encode, ByteArray.ext_iff] using h

theorem Precedes.trans {k l m : String} (h : Precedes k l) (h' : Precedes l m) : Precedes k m :=
  List.lt_trans h h'

theorem Precedes.irrefl (k : String) : ¬ Precedes k k :=
  List.lt_irrefl _

theorem Precedes.ne {k l : String} (h : Precedes k l) : k ≠ l :=
  fun e => Precedes.irrefl l (e ▸ h)

/-- Of two different keys one comes before the other. -/
theorem Precedes.of_not {k l : String} (hne : k ≠ l) (h : ¬ Precedes k l) : Precedes l k := by
  by_cases h' : Precedes l k
  · exact h'
  · exact absurd (Utf8.encode_injective (List.le_antisymm h' h)) hne

/-! ## Tables -/

/-- Rows in the order of their keys. -/
structure Table (α : Type) where
  rows : List (String × α)
  sorted : rows.Pairwise fun r s => Precedes r.1 s.1

namespace Table

variable {α : Type}

/-- The table without rows. -/
def empty : Table α := ⟨[], .nil⟩

instance : Inhabited (Table α) := ⟨empty⟩

def find? (table : Table α) (key : String) : Option α :=
  table.rows.lookup key

def contains (table : Table α) (key : String) : Bool :=
  (table.find? key).isSome

/-- Puts a row in its place among rows in order, over one with its key. -/
def insertRow (key : String) (value : α) : List (String × α) → List (String × α)
  | [] => [(key, value)]
  | row :: rows =>
    if key = row.1 then (key, value) :: rows
    else if Precedes key row.1 then (key, value) :: row :: rows
    else row :: insertRow key value rows

theorem mem_insertRow {key : String} {value : α} {row : String × α} :
    ∀ {rows : List (String × α)}, row ∈ insertRow key value rows → row = (key, value) ∨ row ∈ rows
  | [], h => by simpa [insertRow] using h
  | r :: rows, h => by
    unfold insertRow at h
    split at h
    · simp only [List.mem_cons] at h ⊢
      exact h.imp_right .inr
    · split at h
      · simpa using h
      · rcases List.mem_cons.mp h with rfl | h
        · simp
        · exact (mem_insertRow h).imp_right (List.mem_cons_of_mem _)

theorem sorted_insertRow (key : String) (value : α) :
    ∀ {rows : List (String × α)}, (rows.Pairwise fun r s => Precedes r.1 s.1) →
      (insertRow key value rows).Pairwise fun r s => Precedes r.1 s.1
  | [], _ => by simp [insertRow]
  | r :: rows, h => by
    have ⟨hr, hrows⟩ := List.pairwise_cons.mp h
    unfold insertRow
    split
    · next e => exact List.pairwise_cons.mpr ⟨fun s hs => e ▸ hr s hs, hrows⟩
    · next hne =>
      split
      · next hlt =>
        refine List.pairwise_cons.mpr ⟨fun s hs => ?_, h⟩
        rcases List.mem_cons.mp hs with rfl | hs
        · exact hlt
        · exact hlt.trans (hr s hs)
      · next hge =>
        refine List.pairwise_cons.mpr ⟨fun s hs => ?_, sorted_insertRow key value hrows⟩
        rcases mem_insertRow hs with rfl | hs
        · exact .of_not hne hge
        · exact hr s hs

/-- Puts a value under a key, over the one that is there. -/
def insert (table : Table α) (key : String) (value : α) : Table α :=
  ⟨insertRow key value table.rows, sorted_insertRow key value table.sorted⟩

def erase (table : Table α) (key : String) : Table α :=
  ⟨table.rows.filter (·.1 ≠ key), table.sorted.filter _⟩

def keys (table : Table α) : List String :=
  table.rows.map (·.1)

def values (table : Table α) : List α :=
  table.rows.map (·.2)

/-- The rests of the keys that start with a text, in order. -/
def keysBehind (table : Table α) (start : String) : List String :=
  table.keys.filterMap fun key =>
    if start.toList.isPrefixOf key.toList then
      some (String.ofList (key.toList.drop start.length))
    else none

/-- Changes the value under a key, which is `fresh` if there is none. -/
def alter (table : Table α) (key : String) (fresh : α) (change : α → α) : Table α :=
  table.insert key (change ((table.find? key).getD fresh))

@[simp] theorem find?_empty (key : String) : (empty : Table α).find? key = none := rfl

end Table

end TopicBroker
