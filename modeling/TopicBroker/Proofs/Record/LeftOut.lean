import TopicBroker.Proofs.Action
import TopicBroker.Proofs.Xml.Paths
import TopicBroker.Record.Json
import TopicBroker.Record.Xml

/-! # Fields that are left out

Every value of a record that is read comes from what is given for its field, or the field was left
out and the value stands in for it. -/

namespace TopicBroker

/-- The values that a JSON value gives for a field: those of the members of its name, or the item at
its place. -/
def Json.given (name : String) (place : Nat) : Json → List Json
  | .object members => members.filterMap fun (other, value) =>
    if other = some name then some value else none
  | .array items => items[place]?.toList
  | _ => []

namespace Record

variable {κ : Type} {V : κ → Type}

/-- The values of a row are as said of them, given their fields and the places of these. -/
def Row.All (P : Nat → (f : Field V) → f.Value → Prop) :
    Nat → (fs : List (Field V)) → Row fs → Prop
  | _, [], () => True
  | place, f :: fs, (value, row) => P place f value ∧ All P (place + 1) fs row

theorem Row.All.imp {P Q : Nat → (f : Field V) → f.Value → Prop} {place : Nat} {fs : List (Field V)}
    {row : Row fs} (h : Row.All P place fs row)
    (himp : ∀ place, ∀ f ∈ fs, ∀ value, P place f value → Q place f value) :
    Row.All Q place fs row := by
  induction fs generalizing place with
  | nil => trivial
  | cons f fs ih =>
      obtain ⟨value, row⟩ := row
      exact ⟨himp place f List.mem_cons_self value h.1,
        ih h.2 fun place g hg => himp place g (List.mem_cons_of_mem _ hg)⟩

/-- What is said of the values of a row is said of the value of each field, at its place. -/
theorem Row.All.exists_of_getElem? {P : Nat → (f : Field V) → f.Value → Prop} {fs : List (Field V)}
    {start : Nat} {row : Row fs} (h : Row.All P start fs row) {place : Nat} {f : Field V}
    (hf : fs[place]? = some f) : ∃ value, P (start + place) f value := by
  induction fs generalizing start place with
  | nil => cases hf
  | cons g fs ih =>
      obtain ⟨value, row⟩ := row
      cases place with
      | zero =>
          obtain rfl := Option.some.inj hf
          exact ⟨value, h.1⟩
      | succ place =>
          obtain ⟨value, hvalue⟩ := ih h.2 hf
          rw [Nat.add_right_comm] at hvalue
          exact ⟨value, hvalue⟩

/-- The slots are as said of them, given their fields. -/
def Slots.All (P : (f : Field V) → Option f.Value → Prop) : (fs : List (Field V)) → Slots fs → Prop
  | [], () => True
  | f :: fs, (slot, slots) => P f slot ∧ All P fs slots

theorem Slots.all_empty {P : (f : Field V) → Option f.Value → Prop} {fs : List (Field V)}
    (h : ∀ f ∈ fs, P f none) : Slots.All P fs (Slots.empty fs) := by
  induction fs with
  | nil => trivial
  | cons f fs ih =>
      exact ⟨h f List.mem_cons_self, ih fun g hg => h g (List.mem_cons_of_mem _ hg)⟩

theorem Slots.All.imp {P Q : (f : Field V) → Option f.Value → Prop} {fs : List (Field V)}
    {slots : Slots fs} (h : Slots.All P fs slots) (himp : ∀ f ∈ fs, ∀ slot, P f slot → Q f slot) :
    Slots.All Q fs slots := by
  induction fs with
  | nil => trivial
  | cons f fs ih =>
      obtain ⟨slot, slots⟩ := slots
      exact ⟨himp f List.mem_cons_self slot h.1,
        ih h.2 fun g hg => himp g (List.mem_cons_of_mem _ hg)⟩

theorem Slots.close_cons (f : Field V) (fs : List (Field V)) (slot : Option f.Value)
    (slots : Slots fs) :
    Slots.close (f :: fs) (slot, slots) =
      slot.elim f.absent Except.ok >>= fun value =>
        slots.close fs >>= fun row => .ok (value, row) := by
  cases slot <;> rfl

/-- Closing slots keeps the values that were found, and puts in those that stand in for others. -/
theorem Slots.all_close {P : (f : Field V) → Option f.Value → Prop}
    {Q : Nat → (f : Field V) → f.Value → Prop} {fs : List (Field V)} {slots : Slots fs}
    {row : Row fs}
    (hclose : slots.close fs = .ok row) (h : Slots.All P fs slots)
    (hfound : ∀ place, ∀ f ∈ fs, ∀ value, P f (some value) → Q place f value)
    (habsent : ∀ place, ∀ f ∈ fs, ∀ value, P f none → f.absent = .ok value → Q place f value)
    (place : Nat) : Row.All Q place fs row := by
  induction fs generalizing place with
  | nil => trivial
  | cons f fs ih =>
      obtain ⟨slot, slots⟩ := slots
      rw [close_cons] at hclose
      obtain ⟨value, hvalue, hrest⟩ := exists_of_bind_eq_ok hclose
      obtain ⟨tail, htail, hrow⟩ := exists_of_bind_eq_ok hrest
      obtain rfl := Except.ok.inj hrow
      refine ⟨?_, ih htail h.2 (fun p g hg => hfound p g (List.mem_cons_of_mem _ hg))
        (fun p g hg => habsent p g (List.mem_cons_of_mem _ hg)) (place + 1)⟩
      cases slot with
      | none => exact habsent place f List.mem_cons_self value h.1 hvalue
      | some found =>
          obtain rfl := Except.ok.inj hvalue
          exact hfound place f List.mem_cons_self found h.1

/-! ## Records in JSON -/

section

variable {readValue : (kind : κ) → Json → Except Fault (V kind)}

/-- What a slot holds when members have been taken in: the value of one of them, or nothing if none
has the name of the field. -/
def TakenIn (readValue : (kind : κ) → Json → Except Fault (V kind))
    (members : List (Option String × Json)) (f : Field V) : Option f.Value → Prop
  | none => ∀ member ∈ members, member.1 ≠ some f.name
  | some value => ∃ json, (some f.name, json) ∈ members ∧ f.readJson readValue json = .ok value

theorem TakenIn.append {members : List (Option String × Json)} {f : Field V} {slot : Option f.Value}
    (h : TakenIn readValue members f slot) {name : String} (hname : f.name ≠ name) (json : Json) :
    TakenIn readValue (members ++ [(some name, json)]) f slot := by
  cases slot with
  | none =>
      intro member hmember
      rcases List.mem_append.mp hmember with hmember | hmember
      · exact h member hmember
      · rw [List.mem_singleton.mp hmember]
        exact fun heq => hname (Option.some.inj heq).symm
  | some value =>
      obtain ⟨found, hmember, hread⟩ := h
      exact ⟨found, List.mem_append_left _ hmember, hread⟩

/-- A member goes to the first slot if that is free and has its name, and else to one behind it. -/
theorem Slots.fill_cons_cases {f : Field V} {fs : List (Field V)} {slot : Option f.Value}
    {slots : Slots fs} {name : String} {json : Json} {filled : Option (Slots (f :: fs))}
    (h : fill readValue (f :: fs) (slot, slots) name json = .ok filled) :
    (f.name = name ∧ slot = none ∧
      ∃ value, f.readJson readValue json = .ok value ∧ filled = some (some value, slots)) ∨
    (f.name ≠ name ∧
      ∃ rest, fill readValue fs slots name json = .ok rest ∧ filled = rest.map (slot, ·)) := by
  unfold fill at h
  split at h
  · next hname =>
      cases slot with
      | some value => cases h
      | none =>
          obtain ⟨value, hread, hfilled⟩ := exists_of_map_eq_ok h
          exact .inl ⟨hname, rfl, value, hread, hfilled.symm⟩
  · next hname =>
      obtain ⟨rest, hrest, hfilled⟩ := exists_of_map_eq_ok h
      exact .inr ⟨hname, rest, hrest, hfilled.symm⟩

/-- A member fills the slot of its name and leaves the others as they are. -/
theorem takenIn_of_fill {fs : List (Field V)} (hnames : (fs.map (·.name)).Nodup)
    {members : List (Option String × Json)} {slots : Slots fs}
    (h : Slots.All (TakenIn readValue members) fs slots) {name : String} {json : Json}
    {filled : Option (Slots fs)} (hfill : Slots.fill readValue fs slots name json = .ok filled) :
    Slots.All (TakenIn readValue (members ++ [(some name, json)])) fs (filled.getD slots) := by
  induction fs with
  | nil => trivial
  | cons f fs ih =>
      obtain ⟨slot, slots⟩ := slots
      rw [List.map_cons, List.nodup_cons] at hnames
      obtain ⟨hname, rfl, value, hread, rfl⟩ | ⟨hname, rest, hrest, rfl⟩ :=
        Slots.fill_cons_cases hfill
      · refine ⟨⟨json, by simp [hname], hread⟩, h.2.imp ?_⟩
        intro g hg slot hslot
        refine hslot.append ?_ json
        intro heq
        exact hnames.1 (hname.trans heq.symm ▸ List.mem_map_of_mem hg)
      · have htail := ih hnames.2 h.2 hrest
        cases rest with
        | none => exact ⟨h.1.append hname json, htail⟩
        | some slots' => exact ⟨h.1.append hname json, htail⟩

/-- A member that is taken in has a name. It goes to a slot, or it is passed over. -/
theorem Slots.takeMember_cases {fs : List (Field V)} {slots next : Slots fs}
    {member : Option String × Json} (h : takeMember readValue fs slots member = .ok next) :
    ∃ name json, member = (some name, json) ∧
      (fill readValue fs slots name json = .ok (some next) ∨
        fill readValue fs slots name json = .ok none ∧ json.isWhole = true ∧ next = slots) := by
  obtain ⟨_ | name, json⟩ := member
  · cases h
  refine ⟨name, json, rfl, ?_⟩
  simp only [takeMember] at h
  split at h
  · cases h
  · next hfill =>
      obtain rfl := Except.ok.inj h
      exact .inl hfill
  · next hfill =>
      split at h
      · next hwhole => exact .inr ⟨hfill, hwhole, (Except.ok.inj h).symm⟩
      · cases h

theorem takenIn_of_takeMember {fs : List (Field V)} (hnames : (fs.map (·.name)).Nodup)
    {members : List (Option String × Json)} {slots next : Slots fs}
    (h : Slots.All (TakenIn readValue members) fs slots) {member : Option String × Json}
    (htake : Slots.takeMember readValue fs slots member = .ok next) :
    Slots.All (TakenIn readValue (members ++ [member])) fs next := by
  obtain ⟨name, json, rfl, hfill | ⟨hfill, -, rfl⟩⟩ := Slots.takeMember_cases htake
  · exact takenIn_of_fill hnames h hfill
  · exact takenIn_of_fill hnames h hfill

theorem takenIn_of_foldlM {fs : List (Field V)} (hnames : (fs.map (·.name)).Nodup)
    {before members : List (Option String × Json)} {slots final : Slots fs}
    (h : Slots.All (TakenIn readValue before) fs slots)
    (hfold : members.foldlM (Slots.takeMember readValue fs) slots = .ok final) :
    Slots.All (TakenIn readValue (before ++ members)) fs final := by
  induction members generalizing before slots with
  | nil =>
      obtain rfl := Except.ok.inj hfold
      simpa using h
  | cons member members ih =>
      rw [List.foldlM_cons] at hfold
      obtain ⟨next, htake, hrest⟩ := exists_of_bind_eq_ok hfold
      simpa using ih (takenIn_of_takeMember hnames h htake) hrest

/-- A value of a record comes from one that is given for its field, or nothing is given and it is
the value for a field that is left out. -/
def Comes (readValue : (kind : κ) → Json → Except Fault (V kind)) (json : Json) (place : Nat)
    (f : Field V) (value : f.Value) : Prop :=
  (∃ given ∈ json.given f.name place, f.readJson readValue given = .ok value) ∨
    json.given f.name place = [] ∧ f.absent = .ok value

theorem mem_given_object {members : List (Option String × Json)} {name : String} {place : Nat}
    {json : Json} :
    json ∈ (Json.object members).given name place ↔ (some name, json) ∈ members := by
  simp only [Json.given, List.mem_filterMap]
  constructor
  · rintro ⟨⟨other, value⟩, hmember, hvalue⟩
    split at hvalue
    · next hname =>
        obtain rfl := Option.some.inj hvalue
        exact hname ▸ hmember
    · cases hvalue
  · intro hmember
    exact ⟨_, hmember, by simp⟩

theorem absent_of_absentFromList {fault : Fault} {f : Field V} {value : f.Value}
    (h : f.absentFromList fault = .ok value) : f.absent = .ok value := by
  obtain ⟨name, kind, _ | _ | _ | _⟩ := f
  · cases h
  · exact h
  · exact h
  · cases h

theorem comes_of_readItems {short : Nat → Fault} {long : Fault} {items : List Json}
    {fs : List (Field V)} {row : Row fs} (place : Nat) {index : Nat}
    (hread : readItems readValue short long index fs (items.drop place) = .ok row) :
    Row.All (Comes readValue (.array items)) place fs row := by
  induction fs generalizing place index with
  | nil => trivial
  | cons f fs ih =>
      cases hitem : items.drop place with
      | nil =>
          rw [hitem] at hread
          obtain ⟨value, hvalue, hrest⟩ := exists_of_bind_eq_ok hread
          obtain ⟨tail, htail, hrow⟩ := exists_of_bind_eq_ok hrest
          obtain rfl := Except.ok.inj hrow
          have hlength : items.length ≤ place := List.drop_eq_nil_iff.mp hitem
          have hnext : items.drop (place + 1) = [] := List.drop_eq_nil_iff.mpr (by omega)
          refine ⟨.inr ⟨by simp [Json.given, hlength], absent_of_absentFromList hvalue⟩, ?_⟩
          exact ih (place + 1) (hnext ▸ htail)
      | cons item rest =>
          rw [hitem] at hread
          obtain ⟨value, hvalue, hrest⟩ := exists_of_bind_eq_ok hread
          obtain ⟨tail, htail, hrow⟩ := exists_of_bind_eq_ok hrest
          obtain rfl := Except.ok.inj hrow
          have hget : items[place]? = some item := by
            rw [← List.head?_drop, hitem]
            rfl
          have hnext : items.drop (place + 1) = rest := by
            rw [← List.tail_drop, hitem]
            rfl
          refine ⟨.inl ⟨item, by simp [Json.given, hget], hvalue⟩, ?_⟩
          exact ih (place + 1) (hnext ▸ htail)

/-- Every value of a record comes from what is given for its field, or stands in for it. -/
theorem comes_of_readJson {schema : Schema V} (hnames : (schema.fields.map (·.name)).Nodup)
    {form : Form} {json : Json} {row : schema.Value}
    (hread : schema.readJson form readValue json = .ok row) :
    Row.All (Comes readValue json) 0 schema.fields row := by
  cases json with
  | object members =>
      obtain ⟨slots, hfold, hclose⟩ := exists_of_bind_eq_ok hread
      have hempty : Slots.All (TakenIn readValue []) schema.fields (Slots.empty schema.fields) :=
        Slots.all_empty fun _ _ => nofun
      have hfound := takenIn_of_foldlM hnames hempty hfold
      rw [List.nil_append] at hfound
      refine Slots.all_close hclose hfound ?_ ?_ 0
      · intro place f _ value ⟨given, hmember, hvalue⟩
        exact .inl ⟨given, mem_given_object.mpr hmember, hvalue⟩
      · intro place f _ value hnone habsent
        refine .inr ⟨?_, habsent⟩
        rw [List.eq_nil_iff_forall_not_mem]
        intro given hgiven
        exact hnone _ (mem_given_object.mp hgiven) rfl
  | array items => exact comes_of_readItems 0 hread
  | null | bool _ | number _ | string _ | broken => cases hread

/-! ### Fields are given once -/

/-- The slot for a name holds a value. -/
def Slots.Full : (fs : List (Field V)) → Slots fs → String → Prop
  | [], (), _ => False
  | f :: fs, (slot, slots), name => if f.name = name then slot ≠ none else Full fs slots name

/-- A member goes to a free slot, and no slot is emptied. -/
theorem full_of_fill {fs : List (Field V)} {slots filled : Slots fs} {name : String} {json : Json}
    (h : Slots.fill readValue fs slots name json = .ok (some filled)) :
    ¬ Slots.Full fs slots name ∧ Slots.Full fs filled name ∧
      ∀ other, Slots.Full fs slots other → Slots.Full fs filled other := by
  induction fs with
  | nil => cases h
  | cons f fs ih =>
      obtain ⟨slot, slots⟩ := slots
      obtain ⟨hname, rfl, value, -, hvalue⟩ | ⟨hname, rest, hrest, hmap⟩ :=
        Slots.fill_cons_cases h
      · obtain rfl := Option.some.inj hvalue
        refine ⟨by simp [Slots.Full, hname], by simp [Slots.Full, hname], ?_⟩
        intro other hother
        by_cases heq : f.name = other
        · simp [Slots.Full, heq]
        · simpa [Slots.Full, heq] using hother
      · obtain ⟨next, rfl, rfl⟩ := Option.map_eq_some_iff.mp hmap.symm
        obtain ⟨hfree, hfull, hkept⟩ := ih hrest
        refine ⟨by simpa [Slots.Full, hname] using hfree,
          by simpa [Slots.Full, hname] using hfull, ?_⟩
        intro other hother
        by_cases heq : f.name = other
        · simpa [Slots.Full, heq] using hother
        · simp only [Slots.Full, heq, if_false] at hother ⊢
          exact hkept other hother

/-- A member that goes to no slot has the name of no field. -/
theorem ne_of_fill_none {fs : List (Field V)} {slots : Slots fs} {name : String} {json : Json}
    (h : Slots.fill readValue fs slots name json = .ok none) : name ∉ fs.map (·.name) := by
  induction fs with
  | nil => exact List.not_mem_nil
  | cons f fs ih =>
      obtain ⟨slot, slots⟩ := slots
      obtain ⟨-, -, value, -, hvalue⟩ | ⟨hname, rest, hrest, hmap⟩ := Slots.fill_cons_cases h
      · cases hvalue
      · obtain rfl := Option.map_eq_none_iff.mp hmap.symm
        rw [List.map_cons, List.mem_cons, not_or]
        exact ⟨fun heq => hname heq.symm, ih hrest⟩

/-- A field is given at most once, and not at all if its slot holds a value already. -/
theorem given_of_foldlM {fs : List (Field V)} {name : String} (hname : name ∈ fs.map (·.name))
    (place : Nat) {members : List (Option String × Json)} {slots final : Slots fs}
    (h : members.foldlM (Slots.takeMember readValue fs) slots = .ok final) :
    ((Json.object members).given name place).length ≤ 1 ∧
      (Slots.Full fs slots name → (Json.object members).given name place = []) := by
  induction members generalizing slots with
  | nil => exact ⟨Nat.zero_le _, fun _ => rfl⟩
  | cons member members ih =>
      rw [List.foldlM_cons] at h
      obtain ⟨next, htake, hrest⟩ := exists_of_bind_eq_ok h
      obtain ⟨hlength, hnone⟩ := ih hrest
      obtain ⟨key, json, rfl, hcases⟩ := Slots.takeMember_cases htake
      have hgiven : (Json.object ((some key, json) :: members)).given name place =
          (if key = name then [json] else []) ++ (Json.object members).given name place := by
        by_cases hkey : key = name <;> simp [Json.given, hkey]
      rw [hgiven]
      rcases hcases with hfill | ⟨hfill, -, rfl⟩
      · obtain ⟨hfree, hfull, hkept⟩ := full_of_fill hfill
        by_cases hkey : key = name
        · subst hkey
          rw [hnone hfull]
          exact ⟨by simp, fun hslot => absurd hslot hfree⟩
        · rw [if_neg hkey, List.nil_append]
          exact ⟨hlength, fun hslot => hnone (hkept name hslot)⟩
      · have hkey : key ≠ name := fun heq => ne_of_fill_none hfill (heq ▸ hname)
        rw [if_neg hkey, List.nil_append]
        exact ⟨hlength, hnone⟩

/-- What is given at most once is given alone. -/
theorem eq_singleton_of_mem {α : Type} {a : α} {given : List α} (h : a ∈ given)
    (hlength : given.length ≤ 1) : given = [a] := by
  obtain ⟨only, rfl⟩ :=
    List.length_eq_one_iff.mp (Nat.le_antisymm hlength (List.length_pos_of_mem h))
  rw [List.mem_singleton.mp h]

/-- A record that is read is given each of its fields at most once. -/
theorem length_given_le_one {schema : Schema V} {form : Form} {json : Json} {row : schema.Value}
    (hread : schema.readJson form readValue json = .ok row) {name : String}
    (hname : name ∈ schema.fields.map (·.name)) (place : Nat) :
    (json.given name place).length ≤ 1 := by
  cases json with
  | object members =>
      obtain ⟨slots, hfold, -⟩ := exists_of_bind_eq_ok hread
      exact (given_of_foldlM hname place hfold).1
  | array items => cases h : items[place]? <;> simp [Json.given, h]
  | null | bool _ | number _ | string _ | broken => cases hread

end

/-- A text is read as a record if its value is and nothing else follows in the text. -/
theorem fromJsonText_eq_ok_iff {α : Type} [Structured α] {text : String} {x : α} :
    fromJsonText text = .ok x ↔
      ∃ row, (Structured.shape α).readJson .streamed (Kind.readJson .streamed)
          (Json.read text).value = .ok row ∧
        (Json.read text).complete = true ∧ Structured.ofRow row = x := by
  constructor
  · intro h
    obtain ⟨row, hrow, h⟩ := exists_of_bind_eq_ok h
    split at h
    · next hcomplete => exact ⟨row, hrow, hcomplete, Except.ok.inj h⟩
    · cases h
  · rintro ⟨row, hrow, hcomplete, rfl⟩
    simp only [fromJsonText, hrow, hcomplete]
    rfl

/-! ## Records in XML -/

section

open Xml

/-- Reading the rest of an element leads to what stands behind it. -/
def Consumes {α : Type} (read : Cursor → Except Fault (α × Cursor)) : Prop :=
  ∀ c value rest, read c = .ok (value, rest) → ∀ name outer above,
    rest.paths (outer :: above) ⊆ c.paths (name :: outer :: above)

theorem eq_some_of_orUnreadable {α : Type} {x : Option α} {a : α} (h : orUnreadable x = .ok a) :
    x = some a := by
  cases x with
  | none => cases h
  | some b => rw [Except.ok.inj h]

theorem consumes_readContent : Consumes readContent := by
  intro c cs rest hread name outer above
  obtain ⟨⟨event, next⟩, hnext, hread⟩ := exists_of_bind_eq_ok hread
  have hfollows := Cursor.follows_next? (name :: outer :: above) (eq_some_of_orUnreadable hnext)
  cases event with
  | closed =>
      cases hread
      exact hfollows name outer above rfl
  | text =>
      obtain ⟨⟨event, last⟩, hlast, hread⟩ := exists_of_bind_eq_ok hread
      have hbehind := Cursor.follows_next? (name :: outer :: above) (eq_some_of_orUnreadable hlast)
      cases event with
      | closed =>
          cases hread
          exact List.Subset.trans (hbehind name outer above rfl) hfollows
      | opened | text | finished => cases hread
  | opened | finished => cases hread

/-- The items of a list are elements beside each other. -/
theorem paths_readItemsXml {name : List Char} {fuel : Nat} {c rest : Cursor} {items : List String}
    (hread : readItemsXml name fuel c = .ok (items, rest)) (outer : List Char) (above : Path) :
    rest.paths (outer :: above) ⊆ c.paths (outer :: above) := by
  induction fuel generalizing c rest items with
  | zero => cases hread
  | succ fuel ih =>
      obtain ⟨⟨event, next⟩, hnext, hread⟩ := exists_of_bind_eq_ok hread
      have hfollows := Cursor.follows_next? (outer :: above) (eq_some_of_orUnreadable hnext)
      cases event with
      | text cs =>
          obtain ⟨⟨more, last⟩, hmore, hread⟩ := exists_of_bind_eq_ok hread
          cases hread
          exact List.Subset.trans (ih hmore) hfollows
      | opened tag =>
          dsimp only at hread
          split at hread
          · obtain ⟨⟨cs, behind⟩, hcontent, hread⟩ := exists_of_bind_eq_ok hread
            obtain ⟨⟨more, last⟩, hmore, hread⟩ := exists_of_bind_eq_ok hread
            cases hread
            have hitem := consumes_readContent next cs behind hcontent (localName tag.name) outer
              above
            exact List.Subset.trans (ih hmore) (List.Subset.trans hitem hfollows.2)
          · cases hread
            exact List.Subset.refl _
      | closed =>
          cases hread
          exact List.Subset.refl _
      | finished => cases hread

theorem consumes_leaf (tag : Tag) (leaf : Leaf) : Consumes (leaf.readXml tag) := by
  intro c value rest hread name outer above
  cases leaf with
  | integer range =>
      obtain ⟨⟨cs, behind⟩, hcontent, hread⟩ := exists_of_bind_eq_ok hread
      dsimp only at hread
      split at hread
      · cases hread
        exact consumes_readContent c cs rest hcontent name outer above
      · cases hread
  | text =>
      obtain ⟨⟨cs, behind⟩, hcontent, hread⟩ := exists_of_map_eq_ok hread
      cases hread
      exact consumes_readContent c cs rest hcontent name outer above
  | texts =>
      obtain ⟨⟨cs, behind⟩, hcontent, hread⟩ := exists_of_bind_eq_ok hread
      obtain ⟨⟨items, last⟩, hitems, hread⟩ := exists_of_bind_eq_ok hread
      cases hread
      have hfirst := consumes_readContent c cs behind hcontent name outer above
      exact List.Subset.trans (paths_readItemsXml hitems outer above) hfirst
  | bytes =>
      obtain ⟨⟨cs, behind⟩, hcontent, hread⟩ := exists_of_bind_eq_ok hread
      obtain ⟨bytes, -, hread⟩ := exists_of_bind_eq_ok hread
      cases hread
      exact consumes_readContent c cs rest hcontent name outer above

variable {readValue : XmlReader V}

theorem consumes_readOption {α : Type} {record tag : Tag}
    {read : Cursor → Except Fault (α × Cursor)} (h : Consumes read) :
    Consumes fun c => readOption record tag c (read c) := by
  intro c value rest hread name outer above
  simp only [readOption] at hread
  split at hread
  · obtain ⟨behind, hskip, hread⟩ := exists_of_map_eq_ok hread
    cases hread
    exact Cursor.paths_skip? (eq_some_of_orUnreadable hskip)
  · obtain ⟨⟨x, behind⟩, hvalue, hread⟩ := exists_of_map_eq_ok hread
    cases hread
    exact h c x behind hvalue name outer above

theorem consumes_field (h : ∀ kind tag, Consumes (readValue kind tag)) (record tag : Tag)
    (f : Field V) : Consumes fun c => f.readXml readValue record tag c := by
  obtain ⟨name, kind, _ | _ | _ | _⟩ := f
  · exact h kind tag
  · exact h kind tag
  · exact consumes_readOption (h kind tag)
  · exact consumes_readOption (h kind tag)

/-- The value of a field is read from an element of its name in a record. The path is that of the
record, and the paths are those of the elements in it. -/
def Held (readValue : XmlReader V) (record : Tag) (path : Path) (inside : List Path) (f : Field V)
    (value : f.Value) : Prop :=
  f.name.toList :: path ∈ inside ∧ ∃ tag c rest, c.paths (f.name.toList :: path) ⊆ inside ∧
    f.readXml readValue record tag c = .ok (value, rest)

/-- What a slot holds is read from an element in the record. -/
def HeldSlot (readValue : XmlReader V) (record : Tag) (path : Path) (inside : List Path)
    (f : Field V) (slot : Option f.Value) : Prop :=
  ∀ value ∈ slot, Held readValue record path inside f value

variable {record tag : Tag} {path : Path} {inside : List Path}

theorem held_of_fillXml {c rest : Cursor} {fs : List (Field V)} {slots filled : Slots fs}
    (h : Slots.All (HeldSlot readValue record path inside) fs slots)
    (hmem : localName tag.name :: path ∈ inside)
    (hsubset : c.paths (localName tag.name :: path) ⊆ inside)
    (hfill : Slots.fillXml readValue record tag c fs slots = .ok (some (filled, rest))) :
    Slots.All (HeldSlot readValue record path inside) fs filled ∧
      ∃ f ∈ fs, ∃ value, f.readXml readValue record tag c = .ok (value, rest) := by
  induction fs with
  | nil => cases hfill
  | cons f fs ih =>
      obtain ⟨slot, slots⟩ := slots
      unfold Slots.fillXml at hfill
      split at hfill
      · next hname =>
          cases slot with
          | some value => cases hfill
          | none =>
              obtain ⟨⟨value, behind⟩, hread, hfill⟩ := exists_of_map_eq_ok hfill
              cases hfill
              refine ⟨⟨?_, h.2⟩, f, List.mem_cons_self, value, hread⟩
              intro found hfound
              obtain rfl := Option.some.inj hfound
              rw [← hname] at hmem hsubset
              exact ⟨hmem, tag, c, rest, hsubset, hread⟩
      · obtain ⟨result, hresult, hfill⟩ := exists_of_map_eq_ok hfill
        obtain ⟨⟨others, behind⟩, rfl, hfill⟩ := Option.map_eq_some_iff.mp hfill
        cases hfill
        obtain ⟨hothers, g, hg, hread⟩ := ih h.2 hresult
        exact ⟨⟨h.1, hothers⟩, g, List.mem_cons_of_mem _ hg, hread⟩

/-- Every value that is read into a slot comes from an element in the record, and what is left
stands behind the record. -/
theorem held_of_readFields (hread : ∀ kind tag, Consumes (readValue kind tag)) {fuel : Nat}
    {c rest : Cursor} {fs : List (Field V)} {slots final : Slots fs} {name : List Char}
    {above : Path} (h : Slots.All (HeldSlot readValue record (name :: above) inside) fs slots)
    (hsubset : c.paths (name :: above) ⊆ inside)
    (hfields : readFields readValue record fs fuel slots c = .ok (final, rest)) :
    Slots.All (HeldSlot readValue record (name :: above) inside) fs final ∧
      ∀ outer others, above = outer :: others → rest.paths above ⊆ inside := by
  induction fuel generalizing slots c with
  | zero => cases hfields
  | succ fuel ih =>
      obtain ⟨⟨event, next⟩, hnext, hfields⟩ := exists_of_bind_eq_ok hfields
      have hfollows := Cursor.follows_next? (name :: above) (eq_some_of_orUnreadable hnext)
      cases event with
      | closed =>
          cases hfields
          refine ⟨h, ?_⟩
          rintro outer others rfl
          exact List.Subset.trans (hfollows name outer others rfl) hsubset
      | finished => cases hfields
      | text cs => exact ih h (List.Subset.trans hfollows hsubset) hfields
      | opened tag =>
          obtain ⟨filled, hfill, hfields⟩ := exists_of_bind_eq_ok hfields
          have hinner := List.Subset.trans hfollows.2 hsubset
          cases filled with
          | some filled =>
              obtain ⟨slots', behind⟩ := filled
              obtain ⟨hslots, f, -, value, hvalue⟩ :=
                held_of_fillXml h (hsubset hfollows.1) hinner hfill
              have hbehind := consumes_field hread record tag f next value behind hvalue
                (localName tag.name) name above
              exact ih hslots (List.Subset.trans hbehind hinner) hfields
          | none =>
              obtain ⟨behind, hskip, hfields⟩ := exists_of_bind_eq_ok hfields
              have hbehind : behind.paths (name :: above) ⊆
                  next.paths (localName tag.name :: name :: above) :=
                Cursor.paths_skip? (eq_some_of_orUnreadable hskip)
              exact ih h (List.Subset.trans hbehind hinner) hfields

/-- A value of a record comes from an element in it, or it is the value for a field that is left
out. -/
theorem held_of_readXml (hread : ∀ kind tag, Consumes (readValue kind tag)) {schema : Schema V}
    {c rest : Cursor} {row : schema.Value} (name : List Char) (above : Path)
    (hschema : schema.readXml readValue tag c = .ok (row, rest)) :
    Row.All (fun _ f value => Held readValue tag (name :: above) (c.paths (name :: above)) f value ∨
        f.absent = .ok value) 0 schema.fields row ∧
      ∀ outer others, above = outer :: others → rest.paths above ⊆ c.paths (name :: above) := by
  unfold Schema.readXml at hschema
  split at hschema
  · obtain ⟨⟨slots, behind⟩, hfields, hschema⟩ := exists_of_bind_eq_ok hschema
    obtain ⟨closed, hclose, hschema⟩ := exists_of_bind_eq_ok hschema
    cases hschema
    obtain ⟨hslots, hrest⟩ := held_of_readFields hread
      (Slots.all_empty fun f _ value hvalue => nomatch hvalue) (List.Subset.refl _) hfields
    refine ⟨Slots.all_close hclose hslots ?_ ?_ 0, hrest⟩
    · intro place f _ value hfound
      exact .inl (hfound value rfl)
    · intro place f _ value _ habsent
      exact .inr habsent
  · cases hschema

theorem consumes_kind (kind : Kind) (tag : Tag) : Consumes (kind.readXml tag) := by
  cases kind with
  | leaf leaf => exact consumes_leaf tag leaf
  | record schema =>
      intro c value rest hread name outer above
      have hschema := held_of_readXml (fun leaf tag => consumes_leaf tag leaf) name (outer :: above)
        hread
      exact hschema.2 outer above rfl

end

end Record

end TopicBroker
