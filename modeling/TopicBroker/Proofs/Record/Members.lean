import TopicBroker.Proofs.Record.Json
import TopicBroker.Proofs.Record.LeftOut

/-! # Records and the members of objects

An object is read as a record if and only if all of it makes sense and every field is given once at
most, with a value of its kind, or may be left out. Nothing else matters about the object. -/

namespace TopicBroker

/-! ## Whole values -/

namespace Json

theorem allWhole_iff {items : List Json} :
    allWhole items = true ↔ ∀ item ∈ items, item.isWhole = true := by
  induction items with
  | nil => simp [allWhole]
  | cons item items ih => simp [allWhole, ih]

theorem allMembersWhole_iff {members : List (Option String × Json)} :
    allMembersWhole members = true ↔ ∀ member ∈ members, member.2.isWhole = true := by
  induction members with
  | nil => simp [allMembersWhole]
  | cons member members ih => simp [allMembersWhole, ih]

end Json

namespace Record

open Json

section

variable {κ : Type} {V : κ → Type} {readValue : (kind : κ) → Json → Except Fault (V kind)}

/-- Nothing is read from a value that does not make sense to its end. -/
def ReadsWhole (readValue : (kind : κ) → Json → Except Fault (V kind)) : Prop :=
  ∀ kind json value, readValue kind json = .ok value → json.isWhole = true

theorem whole_of_readText {json : Json} {s : String} (h : readText json = .ok s) :
    json.isWhole = true := by
  cases json with
  | broken => cases h
  | array _ | object _ => cases h
  | null | bool _ | number _ | string _ => rfl

theorem whole_of_mapM_readText {items : List Json} {ss : List String}
    (h : items.mapM readText = .ok ss) : allWhole items = true := by
  induction items generalizing ss with
  | nil => rfl
  | cons item items ih =>
      rw [List.mapM_cons] at h
      obtain ⟨s, hitem, h⟩ := exists_of_bind_eq_ok h
      obtain ⟨rest, hrest, -⟩ := exists_of_bind_eq_ok h
      rw [allWhole, whole_of_readText hitem, ih hrest]
      rfl

theorem Leaf.readsWhole : ReadsWhole Leaf.readJson := by
  intro leaf json value h
  cases json with
  | null | bool _ | number _ | string _ => rfl
  | broken => cases leaf <;> cases h
  | object members => cases leaf <;> cases h
  | array items =>
      cases leaf with
      | texts => exact whole_of_mapM_readText h
      | integer _ | text | bytes => cases h

/-- The value of a field for which a value of its kind is given. -/
def Field.ofGiven : (f : Field V) → V f.kind → f.Value
  | ⟨_, _, .required⟩, value => value
  | ⟨_, _, .defaulted _⟩, value => value
  | ⟨_, _, .optional⟩, value => some value
  | ⟨_, _, .nullable⟩, value => some value

/-- Only `null` may be read otherwise than as a value of the field's kind. -/
theorem Field.readJson_of_ne_null (f : Field V) {json : Json} (h : json ≠ .null) :
    f.readJson readValue json = (readValue f.kind json).map f.ofGiven := by
  obtain ⟨name, kind, _ | _ | _ | _⟩ := f <;> dsimp only [Field.readJson]
  · cases readValue kind json <;> rfl
  · cases readValue kind json <;> rfl
  · split
    · next hnull => exact absurd rfl h
    · rfl
  · split
    · next hnull => exact absurd rfl h
    · rfl

theorem Field.whole_of_readJson (hwhole : ReadsWhole readValue) {f : Field V} {json : Json}
    {value : f.Value} (h : f.readJson readValue json = .ok value) : json.isWhole = true := by
  by_cases hnull : json = .null
  · rw [hnull]
    rfl
  · rw [f.readJson_of_ne_null hnull] at h
    obtain ⟨given, hread, -⟩ := exists_of_map_eq_ok h
    exact hwhole f.kind json given hread

/-! ## The members of a name -/

/-- The values of the members of a name, in their order. -/
abbrev valuesOf (name : String) (members : List (Option String × Json)) : List Json :=
  (Json.object members).given name 0

theorem valuesOf_append (name : String) (members others : List (Option String × Json)) :
    valuesOf name (members ++ others) = valuesOf name members ++ valuesOf name others :=
  List.filterMap_append

theorem valuesOf_cons_self (name : String) (json : Json) (members : List (Option String × Json)) :
    valuesOf name ((some name, json) :: members) = json :: valuesOf name members := by
  simp [Json.given]

theorem valuesOf_cons_of_ne {name : String} {member : Option String × Json}
    (h : member.1 ≠ some name) (members : List (Option String × Json)) :
    valuesOf name (member :: members) = valuesOf name members := by
  simp [Json.given, h]

theorem valuesOf_insert_self (name : String) (json : Json)
    (before after : List (Option String × Json)) :
    valuesOf name (before ++ (some name, json) :: after) =
      valuesOf name before ++ json :: valuesOf name after := by
  rw [valuesOf_append, valuesOf_cons_self]

theorem valuesOf_insert_of_ne {name other : String} (h : other ≠ name) (json : Json)
    (before after : List (Option String × Json)) :
    valuesOf name (before ++ (some other, json) :: after) = valuesOf name (before ++ after) := by
  have hne : (some other, json).1 ≠ some name := fun heq => h (Option.some.inj heq)
  rw [valuesOf_append, valuesOf_append, valuesOf_cons_of_ne hne]

theorem valuesOf_eq_nil_iff {name : String} {members : List (Option String × Json)} :
    valuesOf name members = [] ↔ ∀ member ∈ members, member.1 ≠ some name := by
  simp [Json.given]

theorem exists_split_of_valuesOf {name : String} {json : Json}
    {members : List (Option String × Json)} (h : valuesOf name members = [json]) :
    ∃ before after, members = before ++ (some name, json) :: after ∧
      valuesOf name before = [] ∧ valuesOf name after = [] := by
  have hmember : (some name, json) ∈ members :=
    mem_given_object.mp (h ▸ List.mem_singleton_self json)
  obtain ⟨before, after, rfl⟩ := List.append_of_mem hmember
  rw [valuesOf_insert_self] at h
  refine ⟨before, after, rfl, ?_⟩
  cases hbefore : valuesOf name before with
  | nil =>
      rw [hbefore] at h
      exact ⟨rfl, (List.cons.inj h).2⟩
  | cons first rest =>
      rw [hbefore] at h
      simp at h

/-! ## What is read of an object -/

/-- Every member has a name and a value that makes sense. -/
def Sound (members : List (Option String × Json)) : Prop :=
  ∀ member ∈ members, member.1 ≠ none ∧ member.2.isWhole = true

/-- The value of a field when the members of its name have the given values. There is none if there
is more than one such member. -/
def Field.Takes (readValue : (kind : κ) → Json → Except Fault (V kind)) (f : Field V) :
    List Json → f.Value → Prop
  | [], value => f.absent = .ok value
  | [json], value => f.readJson readValue json = .ok value
  | _ :: _ :: _, _ => False

theorem whole_of_fill (hwhole : ReadsWhole readValue) {fs : List (Field V)}
    {slots filled : Slots fs} {name : String} {json : Json}
    (h : Slots.fill readValue fs slots name json = .ok (some filled)) : json.isWhole = true := by
  induction fs with
  | nil => cases h
  | cons f fs ih =>
      obtain ⟨slot, slots⟩ := slots
      obtain ⟨-, -, value, hread, -⟩ | ⟨-, rest, hrest, hmap⟩ := Slots.fill_cons_cases h
      · exact Field.whole_of_readJson hwhole hread
      · obtain ⟨next, rfl, -⟩ := Option.map_eq_some_iff.mp hmap.symm
        exact ih hrest

theorem sound_of_takeMember (hwhole : ReadsWhole readValue) {fs : List (Field V)}
    {slots next : Slots fs} {member : Option String × Json}
    (h : Slots.takeMember readValue fs slots member = .ok next) :
    member.1 ≠ none ∧ member.2.isWhole = true := by
  obtain ⟨name, json, rfl, hfill | ⟨-, hjson, -⟩⟩ := Slots.takeMember_cases h
  · exact ⟨nofun, whole_of_fill hwhole hfill⟩
  · exact ⟨nofun, hjson⟩

theorem sound_of_foldlM (hwhole : ReadsWhole readValue) {fs : List (Field V)}
    {members : List (Option String × Json)} {slots final : Slots fs}
    (h : members.foldlM (Slots.takeMember readValue fs) slots = .ok final) : Sound members := by
  induction members generalizing slots with
  | nil => exact nofun
  | cons member members ih =>
      rw [List.foldlM_cons] at h
      obtain ⟨next, htake, hrest⟩ := exists_of_bind_eq_ok h
      intro other hother
      rcases List.mem_cons.mp hother with rfl | hother
      · exact sound_of_takeMember hwhole htake
      · exact ih hrest other hother

/-- A member that has the name of no field is passed over. -/
theorem Slots.takeMember_of_not_mem {fs : List (Field V)} {name : String}
    (hname : name ∉ fs.map (·.name)) {json : Json} (hjson : json.isWhole = true)
    (slots : Slots fs) : takeMember readValue fs slots (some name, json) = .ok slots := by
  have hfill : ∀ slots : Slots fs, fill readValue fs slots name json = .ok none := by
    induction fs with
    | nil => exact fun _ => rfl
    | cons f fs ih =>
        rw [List.map_cons, List.mem_cons, not_or] at hname
        intro ⟨slot, slots⟩
        simp only [fill, if_neg (Ne.symm hname.1), ih hname.2 slots slots]
        rfl
  simp only [takeMember, hfill, hjson, if_true]

/-- With one more field, the members are taken in as before, but for those of its name. -/
theorem Slots.foldlM_takeMember_cons {f : Field V} {fs : List (Field V)}
    (hname : f.name ∉ fs.map (·.name)) {members : List (Option String × Json)}
    (hsound : Sound members) {start final : Slots fs}
    (hfold : members.foldlM (takeMember readValue fs) start = .ok final) {value : f.Value}
    (htakes : f.Takes readValue (valuesOf f.name members) value) :
    ∃ slot, members.foldlM (takeMember readValue (f :: fs)) (none, start) = .ok (slot, final) ∧
      slot.elim f.absent .ok = .ok value := by
  cases hvalues : valuesOf f.name members with
  | nil =>
      rw [hvalues] at htakes
      refine ⟨none, ?_, htakes⟩
      rw [foldlM_takeMember_of_ne (valuesOf_eq_nil_iff.mp hvalues), hfold]
      rfl
  | cons json others =>
      rw [hvalues] at htakes
      cases others with
      | cons other others => exact htakes.elim
      | nil =>
          obtain ⟨before, after, rfl, hbefore, hafter⟩ := exists_split_of_valuesOf hvalues
          have hjson : json.isWhole = true := (hsound (some f.name, json) (by simp)).2
          rw [List.foldlM_append] at hfold
          obtain ⟨middle, hfirst, hrest⟩ := exists_of_bind_eq_ok hfold
          rw [List.foldlM_cons, takeMember_of_not_mem hname hjson] at hrest
          refine ⟨some value, ?_, rfl⟩
          calc (before ++ (some f.name, json) :: after).foldlM
                (takeMember readValue (f :: fs)) (none, start)
              = ((some f.name, json) :: after).foldlM
                  (takeMember readValue (f :: fs)) (none, middle) := by
                rw [List.foldlM_append, foldlM_takeMember_of_ne (valuesOf_eq_nil_iff.mp hbefore),
                  hfirst]
                rfl
            _ = after.foldlM (takeMember readValue (f :: fs)) (some value, middle) := by
                rw [List.foldlM_cons, takeMember_self htakes]
                rfl
            _ = .ok (some value, final) := by
                rw [foldlM_takeMember_of_ne (valuesOf_eq_nil_iff.mp hafter)]
                exact congrArg (Except.map _) hrest

/-- The values that the fields take fill the slots. -/
theorem Slots.exists_of_takes {fs : List (Field V)} (hnames : (fs.map (·.name)).Nodup)
    {members : List (Option String × Json)} (hsound : Sound members) {place : Nat} {row : Row fs}
    (h : Row.All (fun _ f value => f.Takes readValue (valuesOf f.name members) value) place fs
      row) :
    ∃ slots, members.foldlM (takeMember readValue fs) (Slots.empty fs) = .ok slots ∧
      slots.close fs = .ok row := by
  induction fs generalizing place with
  | nil =>
      refine ⟨(), ?_, rfl⟩
      induction members with
      | nil => rfl
      | cons member members ih =>
          obtain ⟨_ | name, json⟩ := member
          · exact absurd rfl (hsound _ List.mem_cons_self).1
          · rw [List.foldlM_cons,
              takeMember_of_not_mem List.not_mem_nil (hsound _ List.mem_cons_self).2]
            exact ih (fun other hother => hsound other (List.mem_cons_of_mem _ hother)) trivial
  | cons f fs ih =>
      obtain ⟨value, row⟩ := row
      rw [List.map_cons, List.nodup_cons] at hnames
      obtain ⟨slots, hfold, hclose⟩ := ih hnames.2 h.2
      obtain ⟨slot, hcons, hslot⟩ := foldlM_takeMember_cons hnames.1 hsound hfold h.1
      refine ⟨(slot, slots), hcons, ?_⟩
      rw [close_cons, hslot, hclose]
      rfl

theorem takes_of_comes {members : List (Option String × Json)} {f : Field V} {place : Nat}
    {value : f.Value} (h : Comes readValue (.object members) place f value)
    (hlength : (valuesOf f.name members).length ≤ 1) :
    f.Takes readValue (valuesOf f.name members) value := by
  rcases h with ⟨json, hjson, hread⟩ | ⟨hnone, habsent⟩
  · have hmem : json ∈ valuesOf f.name members := hjson
    rw [eq_singleton_of_mem hmem hlength]
    exact hread
  · have hnil : valuesOf f.name members = [] := hnone
    rw [hnil]
    exact habsent

/-- An object is read as a row if and only if all of its members are sound and each field takes its
value from those of its name. -/
theorem readJson_object_iff (hwhole : ReadsWhole readValue) {schema : Schema V}
    (hnames : (schema.fields.map (·.name)).Nodup) {form : Form}
    {members : List (Option String × Json)} {row : schema.Value} :
    schema.readJson form readValue (.object members) = .ok row ↔
      Sound members ∧
      Row.All (fun _ f value => f.Takes readValue (valuesOf f.name members) value) 0 schema.fields
        row := by
  constructor
  · intro h
    obtain ⟨slots, hfold, -⟩ := exists_of_bind_eq_ok h
    refine ⟨sound_of_foldlM hwhole hfold, (comes_of_readJson hnames h).imp ?_⟩
    intro place f hf value hcomes
    exact takes_of_comes hcomes (length_given_le_one h (List.mem_map_of_mem hf) 0)
  · rintro ⟨hsound, htakes⟩
    obtain ⟨slots, hfold, hclose⟩ := Slots.exists_of_takes hnames hsound htakes
    simp only [Schema.readJson, hfold]
    exact hclose

/-! ## What is read is whole -/

theorem whole_of_readItems (hwhole : ReadsWhole readValue) {short : Nat → Fault} {long : Fault}
    {index : Nat} {fs : List (Field V)} {items : List Json} {row : Row fs}
    (h : readItems readValue short long index fs items = .ok row) :
    ∀ item ∈ items, item.isWhole = true := by
  induction fs generalizing index items with
  | nil =>
      cases items with
      | nil => exact nofun
      | cons item items => cases h
  | cons f fs ih =>
      cases items with
      | nil => exact nofun
      | cons item items =>
          obtain ⟨value, hvalue, h⟩ := exists_of_bind_eq_ok h
          obtain ⟨tail, htail, -⟩ := exists_of_bind_eq_ok h
          exact List.forall_mem_cons.mpr ⟨Field.whole_of_readJson hwhole hvalue, ih htail⟩

theorem Schema.whole_of_readJson (hwhole : ReadsWhole readValue) {schema : Schema V} {form : Form}
    {json : Json} {row : schema.Value} (h : schema.readJson form readValue json = .ok row) :
    json.isWhole = true := by
  cases json with
  | object members =>
      obtain ⟨slots, hfold, -⟩ := exists_of_bind_eq_ok h
      exact allMembersWhole_iff.mpr fun member hm => (sound_of_foldlM hwhole hfold member hm).2
  | array items => exact allWhole_iff.mpr (whole_of_readItems hwhole h)
  | null | bool _ | number _ | string _ | broken => cases h

end

theorem Kind.readsWhole (form : Form) : ReadsWhole (Kind.readJson form) := by
  intro kind json value h
  cases kind with
  | leaf kind => exact Leaf.readsWhole kind json value h
  | record schema => exact Schema.whole_of_readJson Leaf.readsWhole h

end Record

end TopicBroker
