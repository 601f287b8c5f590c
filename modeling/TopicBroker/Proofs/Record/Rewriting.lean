import Mathlib.Data.List.Nodup
import Mathlib.Logic.Relation
import TopicBroker.Proofs.Record.Members

/-! # Rewriting what a record is read from

The members of an object may be put in another order, members that no field asks for may be added
or changed, and the object may be written as the list of its fields, in the record itself and in the
records that it holds. The record that is read stays the same. An object in which a field is given
twice is not read at all, nor is a record that holds such an object. -/

namespace TopicBroker.Record

section

variable {κ : Type} {V : κ → Type}

/-! ## Rewritings -/

/-- What a list has in the place of a field that an object leaves out, unless the field has to be
given. -/
def Field.standIn? (writeValue : (kind : κ) → V kind → Json) : Field V → Option Json
  | ⟨_, _, .required⟩ => none
  | ⟨_, kind, .defaulted value⟩ => some (writeValue kind value)
  | ⟨_, _, .optional⟩ => some .null
  | ⟨_, _, .nullable⟩ => some .null

/-- What a list has in the place of a field of an object. -/
def Field.item? (writeValue : (kind : κ) → V kind → Json) (members : List (Option String × Json))
    (f : Field V) : Option Json :=
  match valuesOf f.name members with
  | [] => f.standIn? writeValue
  | json :: _ => some json

/-- One step of rewriting a value that a record with the given fields is read from. The steps
`inside` the value of a field depend on its kind. -/
inductive Rewrites (inside : κ → Json → Json → Prop) (writeValue : (kind : κ) → V kind → Json)
    (fs : List (Field V)) : Json → Json → Prop where
  /-- The members are put in another order. -/
  | reordered {members members'} : members.Perm members' →
      Rewrites inside writeValue fs (.object members) (.object members')
  /-- A member is added whose name, which has to be a text, is that of no field. Its value has to make
  sense. -/
  | extended (before after) {name json} : name ∉ fs.map (·.name) → json.isWhole = true →
      Rewrites inside writeValue fs (.object (before ++ after))
        (.object (before ++ (some name, json) :: after))
  /-- Such a member gets another value. -/
  | replaced (before after) {name json json'} : name ∉ fs.map (·.name) → json'.isWhole = true →
      Rewrites inside writeValue fs (.object (before ++ (some name, json) :: after))
        (.object (before ++ (some name, json') :: after))
  /-- The object is written as the list of all fields. -/
  | listed {members items} : fs.mapM (Field.item? writeValue members) = some items →
      Rewrites inside writeValue fs (.object members) (.array items)
  /-- A step is made inside the value of a member, which is one of the known ones. -/
  | inMember (before after) {json json'} {f : Field V} : f ∈ fs → inside f.kind json json' →
      Rewrites inside writeValue fs (.object (before ++ (some f.name, json) :: after))
        (.object (before ++ (some f.name, json') :: after))
  /-- A step is made inside an item of a list, which is in the place of a field. -/
  | inItem (before after) {json json'} {f : Field V} : fs[before.length]? = some f →
      inside f.kind json json' →
      Rewrites inside writeValue fs (.array (before ++ json :: after))
        (.array (before ++ json' :: after))

/-- A field is given twice in an object, or in one that the value of a field is read from. -/
inductive Repeats (inside : κ → Json → Prop) (fs : List (Field V)) (json : Json) : Prop where
  | twice (place : Nat) {f : Field V} : fs[place]? = some f →
      1 < (json.given f.name place).length → Repeats inside fs json
  | within (place : Nat) {f : Field V} {given : Json} : fs[place]? = some f →
      given ∈ json.given f.name place → inside f.kind given → Repeats inside fs json

/-! ## A step keeps what is read -/

variable {readValue : (kind : κ) → Json → Except Fault (V kind)}
  {writeValue : (kind : κ) → V kind → Json}

/-- A step from a value to another one keeps what is read from it as a value of the kind. Neither of
the two is `null`, which an option may be read from. -/
structure Kept (readValue : (kind : κ) → Json → Except Fault (V kind)) (kind : κ)
    (json json' : Json) : Prop where
  present : json ≠ .null
  present' : json' ≠ .null
  reads : ∀ value, readValue kind json = .ok value → readValue kind json' = .ok value

theorem Kept.readField {f : Field V} {json json' : Json} (h : Kept readValue f.kind json json')
    {value : f.Value} (hread : f.readJson readValue json = .ok value) :
    f.readJson readValue json' = .ok value := by
  rw [f.readJson_of_ne_null h.present] at hread
  rw [f.readJson_of_ne_null h.present']
  obtain ⟨given, hgiven, rfl⟩ := exists_of_map_eq_ok hread
  rw [h.reads given hgiven]
  rfl

/-! ### Lists -/

theorem readItems_replace {short : Nat → Fault} {long : Fault} {f : Field V} {json json' : Json}
    (hkept : Kept readValue f.kind json json') {fs : List (Field V)} {before after : List Json}
    (hf : fs[before.length]? = some f) {index : Nat} {row : Row fs}
    (h : readItems readValue short long index fs (before ++ json :: after) = .ok row) :
    readItems readValue short long index fs (before ++ json' :: after) = .ok row := by
  induction before generalizing fs index with
  | nil =>
      cases fs with
      | nil => cases hf
      | cons g fs =>
          obtain rfl := Option.some.inj hf
          obtain ⟨value, hvalue, h⟩ := exists_of_bind_eq_ok h
          simp only [List.nil_append, readItems, hkept.readField hvalue]
          exact h
  | cons item before ih =>
      cases fs with
      | nil => cases hf
      | cons g fs =>
          obtain ⟨value, hvalue, h⟩ := exists_of_bind_eq_ok h
          obtain ⟨tail, htail, h⟩ := exists_of_bind_eq_ok h
          have hrest := ih hf htail
          simp only [List.cons_append, readItems, hvalue, hrest]
          exact h

/-- What stands in a list for a field that is left out is read as the value for such a field. -/
theorem Field.readJson_of_standIn? {f : Field V} (hkind : ReadsBack readValue writeValue f.kind)
    {json : Json} (hjson : f.standIn? writeValue = some json) {value : f.Value}
    (h : f.absent = .ok value) : f.readJson readValue json = .ok value := by
  obtain ⟨name, kind, _ | default | _ | _⟩ := f
  · cases hjson
  · cases hjson
    exact (hkind.reads default).trans h
  · cases hjson
    exact h
  · cases hjson
    exact h

theorem Field.readJson_of_item? {f : Field V} (hkind : ReadsBack readValue writeValue f.kind)
    {members : List (Option String × Json)} {item : Json}
    (hitem : f.item? writeValue members = some item) {value : f.Value}
    (h : f.Takes readValue (valuesOf f.name members) value) :
    f.readJson readValue item = .ok value := by
  unfold Field.item? at hitem
  match hvalues : valuesOf f.name members with
  | [] =>
      rw [hvalues] at hitem h
      exact Field.readJson_of_standIn? hkind hitem h
  | [json] =>
      rw [hvalues] at hitem h
      obtain rfl := Option.some.inj hitem
      exact h
  | _ :: _ :: _ =>
      rw [hvalues] at h
      exact h.elim

theorem readItems_of_takes {short : Nat → Fault} {long : Fault} {fs : List (Field V)}
    (hkinds : ∀ f ∈ fs, ReadsBack readValue writeValue f.kind)
    {members : List (Option String × Json)} {items : List Json}
    (hitems : fs.mapM (Field.item? writeValue members) = some items) {place index : Nat}
    {row : Row fs}
    (h : Row.All (fun _ f value => f.Takes readValue (valuesOf f.name members) value) place fs
      row) :
    readItems readValue short long index fs items = .ok row := by
  induction fs generalizing items place index with
  | nil =>
      obtain rfl := Option.some.inj hitems
      rfl
  | cons f fs ih =>
      obtain ⟨value, row⟩ := row
      rw [List.mapM_cons] at hitems
      obtain ⟨item, hitem, hitems⟩ := Option.bind_eq_some_iff.mp hitems
      obtain ⟨rest, hrest, hitems⟩ := Option.bind_eq_some_iff.mp hitems
      obtain rfl := Option.some.inj hitems
      have hread := Field.readJson_of_item? (hkinds f List.mem_cons_self) hitem h.1
      have hothers := fun g hg => hkinds g (List.mem_cons_of_mem _ hg)
      simp only [readItems, hread, ih hothers hrest h.2]
      rfl

/-! ### Objects -/

theorem Field.takes_of_perm {f : Field V} {values values' : List Json} (hperm : values.Perm values')
    {value : f.Value} (h : f.Takes readValue values value) : f.Takes readValue values' value := by
  match values with
  | [] => exact List.nil_perm.mp hperm ▸ h
  | [json] => exact List.singleton_perm.mp hperm ▸ h
  | _ :: _ :: _ => exact h.elim

/-- A value that a field takes stands alone. -/
theorem Field.Takes.alone {f : Field V} {before after : List Json} {json : Json} {value : f.Value}
    (h : f.Takes readValue (before ++ json :: after) value) :
    before = [] ∧ after = [] ∧ f.readJson readValue json = .ok value := by
  match before, after with
  | [], [] => exact ⟨rfl, rfl, h⟩
  | [], _ :: _ => exact h.elim
  | _ :: [], _ => exact h.elim
  | _ :: _ :: _, _ => exact h.elim

theorem Kept.takes {f : Field V} {before after : List Json} {json json' : Json}
    (h : Kept readValue f.kind json json') {value : f.Value}
    (htakes : f.Takes readValue (before ++ json :: after) value) :
    f.readJson readValue json' = .ok value ∧
      f.Takes readValue (before ++ json' :: after) value := by
  obtain ⟨rfl, rfl, hread⟩ := htakes.alone
  exact ⟨h.readField hread, h.readField hread⟩

theorem sound_iff_of_perm {members members' : List (Option String × Json)}
    (hperm : members.Perm members') : Sound members ↔ Sound members' := by
  simp only [Sound, hperm.mem_iff]

theorem sound_insert_iff {before after : List (Option String × Json)}
    {member : Option String × Json} :
    Sound (before ++ member :: after) ↔
      (member.1 ≠ none ∧ member.2.isWhole = true) ∧ Sound (before ++ after) :=
  (sound_iff_of_perm List.perm_middle).trans List.forall_mem_cons

theorem ne_of_not_mem_names {f : Field V} {fs : List (Field V)} (hf : f ∈ fs) {name : String}
    (hname : name ∉ fs.map (·.name)) : name ≠ f.name := by
  rintro rfl
  exact hname (List.mem_map_of_mem hf)

section

variable {schema : Schema V} {form : Form} {row : schema.Value}

section

variable (hwhole : ReadsWhole readValue) (hnames : (schema.fields.map (·.name)).Nodup)

include hwhole hnames

/-- Objects from which the fields take the same values are read alike. -/
theorem readJson_object_congr {members members' : List (Option String × Json)}
    (hsound : Sound members → Sound members')
    (htakes : ∀ f ∈ schema.fields, ∀ value, f.Takes readValue (valuesOf f.name members) value →
      f.Takes readValue (valuesOf f.name members') value)
    (h : schema.readJson form readValue (.object members) = .ok row) :
    schema.readJson form readValue (.object members') = .ok row := by
  obtain ⟨hsound', hrow⟩ := (readJson_object_iff hwhole hnames).mp h
  refine (readJson_object_iff hwhole hnames).mpr ⟨hsound hsound', hrow.imp ?_⟩
  exact fun _ => htakes

theorem readJson_inMember {f : Field V} (hf : f ∈ schema.fields)
    {before after : List (Option String × Json)} {json json' : Json}
    (hkept : Kept readValue f.kind json json')
    (h : schema.readJson form readValue (.object (before ++ (some f.name, json) :: after)) =
      .ok row) :
    schema.readJson form readValue (.object (before ++ (some f.name, json') :: after)) =
      .ok row := by
  refine readJson_object_congr hwhole hnames ?_ ?_ h
  · intro hsound
    obtain ⟨place, hplace⟩ := List.getElem?_of_mem hf
    obtain ⟨-, hrow⟩ := (readJson_object_iff hwhole hnames).mp h
    obtain ⟨value, htakes⟩ := hrow.exists_of_getElem? hplace
    rw [valuesOf_insert_self] at htakes
    have hjson' := Field.whole_of_readJson hwhole (hkept.takes htakes).1
    exact sound_insert_iff.mpr ⟨⟨nofun, hjson'⟩, (sound_insert_iff.mp hsound).2⟩
  · intro g hg value htakes
    -- No other field has the name, so that none but this one meets the new value.
    by_cases heq : f.name = g.name
    · obtain rfl := List.inj_on_of_nodup_map hnames hf hg heq
      rw [valuesOf_insert_self] at htakes ⊢
      exact (hkept.takes htakes).2
    · rw [valuesOf_insert_of_ne heq] at htakes ⊢
      exact htakes

/-! ### Any step -/

/-- A step of rewriting keeps what is read if the steps inside fields do. -/
theorem readJson_of_rewrites
    (hkinds : ∀ f ∈ schema.fields, ReadsBack readValue writeValue f.kind)
    {inside : κ → Json → Json → Prop}
    (hinside : ∀ f ∈ schema.fields, ∀ json json', inside f.kind json json' →
      Kept readValue f.kind json json')
    {json json' : Json} (hstep : Rewrites inside writeValue schema.fields json json')
    (h : schema.readJson form readValue json = .ok row) :
    schema.readJson form readValue json' = .ok row := by
  cases hstep with
  | reordered hperm =>
      refine readJson_object_congr hwhole hnames (sound_iff_of_perm hperm).mp ?_ h
      intro f _ value htakes
      exact Field.takes_of_perm (hperm.filterMap _) htakes
  | extended _ _ hname hjson =>
      refine readJson_object_congr hwhole hnames
        (fun hsound => sound_insert_iff.mpr ⟨⟨nofun, hjson⟩, hsound⟩) ?_ h
      intro f hf value htakes
      rwa [valuesOf_insert_of_ne (ne_of_not_mem_names hf hname)]
  | replaced _ _ hname hjson =>
      refine readJson_object_congr hwhole hnames
        (fun hsound => sound_insert_iff.mpr ⟨⟨nofun, hjson⟩, (sound_insert_iff.mp hsound).2⟩) ?_ h
      intro f hf value htakes
      have hne := ne_of_not_mem_names hf hname
      rw [valuesOf_insert_of_ne hne] at htakes ⊢
      exact htakes
  | listed hitems =>
      obtain ⟨-, hrow⟩ := (readJson_object_iff hwhole hnames).mp h
      exact readItems_of_takes hkinds hitems hrow
  | inMember _ _ hf hjson => exact readJson_inMember hwhole hnames hf (hinside _ hf _ _ hjson) h
  | inItem _ _ hf hjson =>
      have hkept := hinside _ (List.mem_of_getElem? hf) _ _ hjson
      simp only [Schema.readJson, List.length_append, List.length_cons] at h ⊢
      exact readItems_replace hkept hf h

end

theorem ne_null_of_rewrites {inside : κ → Json → Json → Prop} {fs : List (Field V)}
    {json json' : Json} (h : Rewrites inside writeValue fs json json') :
    json ≠ .null ∧ json' ≠ .null := by
  cases h <;> exact ⟨nofun, nofun⟩

/-! ## Fields that are given twice -/

theorem not_read_of_repeats (hnames : (schema.fields.map (·.name)).Nodup)
    {inside : κ → Json → Prop}
    (hinside : ∀ f ∈ schema.fields, ∀ json, inside f.kind json →
      ∀ value, f.readJson readValue json ≠ .ok value)
    {json : Json} (hrepeats : Repeats inside schema.fields json) :
    schema.readJson form readValue json ≠ .ok row := by
  intro h
  have honce : ∀ {place f}, schema.fields[place]? = some f →
      (json.given f.name place).length ≤ 1 := fun hf =>
    length_given_le_one h (List.mem_map_of_mem (List.mem_of_getElem? hf)) _
  cases hrepeats with
  | twice _ hf htwice => exact absurd htwice (Nat.not_lt.mpr (honce hf))
  | within _ hf hgiven hjson =>
      obtain ⟨value, hcomes⟩ := (comes_of_readJson hnames h).exists_of_getElem? hf
      rw [Nat.zero_add] at hcomes
      rcases hcomes with ⟨read, hread, hvalue⟩ | ⟨hnone, -⟩
      · rw [eq_singleton_of_mem hgiven (honce hf), List.mem_singleton] at hread
        rw [hread] at hvalue
        exact hinside _ (List.mem_of_getElem? hf) _ hjson _ hvalue
      · rw [hnone] at hgiven
        cases hgiven

theorem Repeats.ne_null {inside : κ → Json → Prop} {fs : List (Field V)} {json : Json}
    (h : Repeats inside fs json) : json ≠ .null := by
  rintro rfl
  cases h with
  | twice _ _ htwice => cases htwice
  | within _ _ hgiven _ => cases hgiven

end

end

/-! ## Records that hold records -/

/-- One step of rewriting a value of a kind. A simple value has no other form. -/
def Kind.Rewrites : Kind → Json → Json → Prop
  | .leaf _ => fun _ _ => False
  | .record schema => Record.Rewrites (fun _ _ _ => False) Leaf.writeJson schema.fields

/-- A field is given twice in a value of a kind. -/
def Kind.Repeats : Kind → Json → Prop
  | .leaf _ => fun _ => False
  | .record schema => Record.Repeats (fun _ _ => False) schema.fields

theorem Kind.kept {kind : Kind} (hexact : kind.Exact) (form : Form) {json json' : Json}
    (h : kind.Rewrites json json') : Kept (Kind.readJson form) kind json json' := by
  cases kind with
  | leaf kind => exact h.elim
  | record schema =>
      obtain ⟨hjson, hjson'⟩ := ne_null_of_rewrites h
      refine ⟨hjson, hjson', fun row hread => ?_⟩
      have hkinds : ∀ f ∈ schema.fields, ReadsBack Leaf.readJson Leaf.writeJson f.kind :=
        fun f hf => Leaf.readsBack (hexact.2 f hf)
      exact readJson_of_rewrites Leaf.readsWhole hexact.1 hkinds
        (fun _ _ _ _ hinside => hinside.elim) h hread

theorem Kind.not_read_of_repeats {kind : Kind} (hexact : kind.Exact) (form : Form) {json : Json}
    (h : kind.Repeats json) (value : kind.Value) : kind.readJson form json ≠ .ok value := by
  cases kind with
  | leaf kind => exact h.elim
  | record schema =>
      exact Record.not_read_of_repeats hexact.1 (fun _ _ _ hinside => hinside.elim) h

theorem Kind.ne_null_of_repeats {kind : Kind} {json : Json} (h : kind.Repeats json) :
    json ≠ .null := by
  cases kind with
  | leaf kind => exact h.elim
  | record schema => exact Record.Repeats.ne_null h

/-- Any number of steps of rewriting a value that a record is read from. -/
def Shape.Rewrites (shape : Shape) : Json → Json → Prop :=
  Relation.ReflTransGen (Record.Rewrites Kind.Rewrites Kind.writeJson shape.fields)

/-- A field is given twice in a value that a record is read from. -/
def Shape.Repeats (shape : Shape) : Json → Prop :=
  Record.Repeats Kind.Repeats shape.fields

section

variable {shape : Shape} {form : Form} {row : shape.Value}

/-- However a value is rewritten, the same record is read from it. -/
theorem Shape.readJson_of_rewrites (hexact : shape.Exact Kind.Exact) {json json' : Json}
    (h : shape.Rewrites json json')
    (hread : shape.readJson form (Kind.readJson form) json = .ok row) :
    shape.readJson form (Kind.readJson form) json' = .ok row := by
  induction h with
  | refl => exact hread
  | tail _ hstep ih =>
      refine Record.readJson_of_rewrites (Kind.readsWhole form) hexact.1 ?_ ?_ hstep ih
      · exact fun f hf => Kind.readsBack (hexact.2 f hf) form
      · exact fun f hf _ _ => Kind.kept (hexact.2 f hf) form

theorem Shape.not_read_of_repeats (hexact : shape.Exact Kind.Exact) {json : Json}
    (h : shape.Repeats json) : shape.readJson form (Kind.readJson form) json ≠ .ok row := by
  refine Record.not_read_of_repeats hexact.1 ?_ h
  intro f hf given hinside value hread
  rw [f.readJson_of_ne_null (Kind.ne_null_of_repeats hinside)] at hread
  obtain ⟨inner, hinner, -⟩ := exists_of_map_eq_ok hread
  exact Kind.not_read_of_repeats (hexact.2 f hf) form hinside inner hinner

end

end TopicBroker.Record
