import Mathlib.Data.List.TakeDrop
import Mathlib.Data.List.TakeWhile
import TopicBroker.Proofs.Action
import TopicBroker.Proofs.Record.LeftOut
import TopicBroker.Proofs.Table
import TopicBroker.Record.Setting

/-! # Values laid over one another

What a value holds under a name when another value was laid over it, and where a record takes its
fields from when it is read from settings. -/

namespace TopicBroker

theorem Toml.lookup_put {α : Type} (name other : String) (value : α)
    (members : List (String × α)) :
    (put name value members).lookup other =
      if other = name then some value else members.lookup other := by
  induction members with
  | nil => simp [put, Table.lookup_row]
  | cons member members ih =>
      obtain ⟨first, kept⟩ := member
      rw [put]
      split
      · next hfirst =>
          subst hfirst
          by_cases hother : other = name <;> simp [Table.lookup_row, hother]
      · next hne =>
          rw [Table.lookup_row, ih, Table.lookup_row]
          by_cases hfirst : other = first
          · simp [hfirst, Ne.symm hne]
          · simp [hfirst]

namespace Setting

/-! ## Names -/

theorem member_put (name other : String) (setting : Setting) (members : List (String × Setting)) :
    (table (Toml.put name setting members)).member other =
      if other = name then setting else (table members).member other := by
  simp only [member, Setting.members, Toml.lookup_put]
  split <;> rfl

/-- A value that is laid under a name changes what is there, and nothing else. -/
theorem member_layAt (setting : Setting) (name other : String) (steps : List Step)
    (base : Setting) :
    (layAt setting (.name name :: steps) base).member other =
      if other = name then layAt setting steps (base.member name) else base.member other := by
  rw [layAt, member_put]
  rfl

/-- The value is no table. -/
def Whole (setting : Setting) : Prop :=
  ∀ members, setting ≠ table members

/-- What is no table replaces what it is laid over. -/
theorem Whole.lay_eq {setting : Setting} (h : Whole setting) (base : Setting) :
    lay setting base = setting := by
  cases setting with
  | table members => exact absurd rfl (h members)
  | _ => simp only [lay]

theorem lay_table_absent (members : List (String × Setting)) :
    lay (table members) absent = table (layMembers members []) := by
  simp [lay, isAbsent, Setting.members]

theorem member_layMembers {members : List (String × Setting)}
    (hnodup : (members.map Prod.fst).Nodup) (base : List (String × Setting)) (name : String) :
    (table (layMembers members base)).member name =
      match members.lookup name with
      | some setting => lay setting ((table base).member name)
      | none => (table base).member name := by
  induction members generalizing base with
  | nil => simp [layMembers]
  | cons member members ih =>
      obtain ⟨first, setting⟩ := member
      obtain ⟨hfirst, hrest⟩ := List.nodup_cons.mp hnodup
      rw [layMembers, ih hrest, Table.lookup_row, member_put]
      by_cases hname : name = first
      · have hnone := Table.lookup_eq_none_of_not_mem hfirst
        simp only [hname, hnone, if_true]
        rfl
      · simp only [hname, if_false]

/-- What was laid under one name after the other is found there. -/
theorem member_layAll {source : List (String × Setting)}
    (hnodup : (source.map Prod.fst).Nodup) (hpath : ∀ name ∈ source.map Prod.fst,
      pathOf name = [.name name]) (base : Setting) (name : String) :
    (layAll source base).member name =
      match source.lookup name with
      | some setting => lay setting (base.member name)
      | none => base.member name := by
  induction source generalizing base with
  | nil => rfl
  | cons entry source ih =>
      obtain ⟨first, setting⟩ := entry
      obtain ⟨hfirst, hrest⟩ := List.nodup_cons.mp hnodup
      obtain ⟨hone, hothers⟩ := List.forall_mem_cons.mp hpath
      change (layAll source (layAt setting (pathOf first) base)).member name = _
      rw [ih hrest hothers, Table.lookup_row, hone, member_layAt]
      by_cases hname : name = first
      · have hnone := Table.lookup_eq_none_of_not_mem hfirst
        simp only [hname, hnone, if_true, layAt]
      · simp only [hname, if_false]

/-- The path of a key starts with a name. -/
theorem exists_pathOf_eq (key : String) : ∃ name steps, pathOf key = .name name :: steps := by
  simp only [pathOf]
  split
  · exact ⟨_, _, rfl⟩
  · split <;> exact ⟨_, _, rfl⟩

/-- A name alone is a path. -/
theorem pathOf_of_isName {name : String} (hne : name ≠ "")
    (hchars : ∀ c ∈ name.toList, isNameChar c = true) : pathOf name = [.name name] := by
  have hspan : name.toList.span isNameChar = (name.toList, []) := by
    rw [List.span_eq_takeWhile_dropWhile, List.takeWhile_eq_self_iff.mpr hchars,
      List.dropWhile_eq_nil_iff.mpr hchars]
  simp only [pathOf, hspan]
  split
  · next hempty =>
      have hnil : name.toList = [] := (Prod.mk.inj hempty).1
      exact absurd (String.toList_eq_nil_iff.mp hnil) hne
  · next hrest =>
      obtain ⟨rfl, rfl⟩ := Prod.mk.inj hrest
      simp [readSteps?]

/-- What keys are laid over stays a table. -/
theorem exists_layAll_eq (source : List (String × Setting)) (members : List (String × Setting)) :
    ∃ members', layAll source (table members) = table members' := by
  induction source generalizing members with
  | nil => exact ⟨members, rfl⟩
  | cons entry source ih =>
      obtain ⟨name, steps, hpath⟩ := exists_pathOf_eq entry.1
      have hstep : layAll (entry :: source) (table members) =
          layAll source (layAt entry.2 (pathOf entry.1) (table members)) := rfl
      rw [hstep, hpath, layAt]
      exact ih _

/-! ## Sections -/

/-- What a section holds for a field: a table under its name, and a list at its place. -/
def part (setting : Setting) (name : String) (place : Nat) : Setting :=
  match setting with
  | list items => items.getD place absent
  | setting => setting.member name

@[simp] theorem part_absent (name : String) (place : Nat) : absent.part name place = absent := rfl

@[simp] theorem part_table (members : List (String × Setting)) (name : String) (place : Nat) :
    (table members).part name place = (table members).member name := rfl

theorem part_of_ne_list {setting : Setting} (h : ∀ items, setting ≠ list items) (name : String)
    (place : Nat) : setting.part name place = setting.member name := by
  cases setting with
  | list items => exact absurd rfl (h items)
  | _ => rfl

end Setting

/-! ## Records -/

namespace Record

/-- The value of a kind that a setting is converted to, if it can be. -/
def Leaf.convert (leaf : Leaf) (setting : Setting) : Option leaf.Value :=
  (leaf.readSetting "" setting).toOption

@[simp] theorem toOption_converted {α : Type} (key : String) (value : Option α) :
    (converted key value).toOption = value := by
  cases value <;> rfl

theorem toOption_mapM_converted (key : String) (items : List Setting) (first : Nat) :
    ((items.zipIdx first).mapM fun x => converted (itemKey key x.2) x.1.text?).toOption =
      items.mapM Setting.text? := by
  induction items generalizing first with
  | nil => rfl
  | cons item items ih =>
      rw [List.zipIdx_cons, List.mapM_cons, List.mapM_cons, ← ih (first + 1)]
      cases item.text? with
      | none => rfl
      | some text =>
          cases (items.zipIdx (first + 1)).mapM fun x =>
            converted (itemKey key x.2) x.1.text? <;> rfl

/-- The key of a value matters only for what is said of a refusal. -/
theorem toOption_readSetting (key : String) (leaf : Leaf) (setting : Setting) :
    (leaf.readSetting key setting).toOption = leaf.convert setting := by
  cases leaf with
  | integer | text => simp [Leaf.convert, Leaf.readSetting]
  | texts =>
      cases setting with
      | list items => simp only [Leaf.convert, Leaf.readSetting, toOption_mapM_converted]
      | _ => rfl
  | bytes => rfl

theorem readSetting_of_convert {leaf : Leaf} {setting : Setting} {value : leaf.Value}
    (h : leaf.convert setting = some value) (key : String) :
    leaf.readSetting key setting = .ok value := by
  rw [← toOption_readSetting key] at h
  cases hread : leaf.readSetting key setting with
  | error fault =>
      rw [hread] at h
      cases h
  | ok v =>
      rw [hread] at h
      exact congrArg Except.ok (Option.some.inj h)

theorem convert_texts (items : List Setting) :
    Leaf.texts.convert (.list items) = items.mapM Setting.text? :=
  toOption_mapM_converted "" items 0

/-- What a field that may be left out takes from a setting. -/
inductive Leaf.Takes (leaf : Leaf) : Setting → Option leaf.Value → Prop where
  | absent : leaf.Takes .absent none
  | given {setting : Setting} {value : leaf.Value} (there : setting ≠ .absent)
      (converted : leaf.convert setting = some value) : leaf.Takes setting (some value)

theorem Leaf.Takes.eq_none {leaf : Leaf} {value : Option leaf.Value}
    (h : leaf.Takes .absent value) : value = none := by
  cases h with
  | absent => rfl
  | given there => exact absurd rfl there

theorem Leaf.Takes.exists_convert {leaf : Leaf} {setting : Setting} {value : Option leaf.Value}
    (h : leaf.Takes setting value) (hthere : setting ≠ .absent) :
    ∃ v, value = some v ∧ leaf.convert setting = some v := by
  cases h with
  | absent => exact absurd rfl hthere
  | given there converted => exact ⟨_, rfl, converted⟩

section

variable {κ : Type} {V : κ → Type}
  {readValue : String → (kind : κ) → Setting → Except SettingFault (V kind)} {key : String}

theorem Field.cases_of_readSetting_nullable {name : String} {kind : κ} {setting : Setting}
    {value : Option (V kind)}
    (h : Field.readSetting readValue key ⟨name, kind, .nullable⟩ setting = .ok value) :
    (setting = .absent ∧ value = none) ∨
      setting ≠ .absent ∧ ∃ v, readValue key kind setting = .ok v ∧ value = some v := by
  cases setting with
  | absent => exact .inl ⟨rfl, (Except.ok.inj h).symm⟩
  | _ =>
      obtain ⟨v, hread, hvalue⟩ := exists_of_map_eq_ok h
      exact .inr ⟨nofun, v, hread, hvalue.symm⟩

theorem Field.readSetting_nullable {name : String} {kind : κ} {setting : Setting} {value : V kind}
    (hthere : setting ≠ .absent) (h : readValue key kind setting = .ok value) :
    Field.readSetting readValue key ⟨name, kind, .nullable⟩ setting = .ok (some value) := by
  cases setting with
  | absent => exact absurd rfl hthere
  | _ => simp only [Field.readSetting, h, Except.map]

theorem readSettingMembers_cons {setting : Setting} {f : Field V} {fs : List (Field V)}
    {value : f.Value} {row : Row fs}
    (hvalue : f.readSetting readValue (memberKey key f.name) (setting.member f.name) = .ok value)
    (hrow : readSettingMembers readValue key setting fs = .ok row) :
    readSettingMembers readValue key setting (f :: fs) = .ok (value, row) := by
  rw [readSettingMembers, hvalue, hrow]
  rfl

/-- The value of a field comes from a part of the section. -/
def ComesFrom (readValue : String → (kind : κ) → Setting → Except SettingFault (V kind))
    (setting : Setting) (place : Nat) (f : Field V) (value : f.Value) : Prop :=
  ∃ key, f.readSetting readValue key (setting.part f.name place) = .ok value

theorem comesFrom_of_readSettingMembers {members : List (String × Setting)}
    {fs : List (Field V)} {row : Row fs} {place : Nat}
    (h : readSettingMembers readValue key (.table members) fs = .ok row) :
    Row.All (ComesFrom readValue (.table members)) place fs row := by
  induction fs generalizing place with
  | nil => trivial
  | cons f fs ih =>
      obtain ⟨value, hvalue, hrest⟩ := exists_of_bind_eq_ok h
      obtain ⟨tail, htail, hrow⟩ := exists_of_bind_eq_ok hrest
      obtain rfl := Except.ok.inj hrow
      exact ⟨⟨_, hvalue⟩, ih htail⟩

theorem comesFrom_of_readSettingItems {items : List Setting} {fs : List (Field V)} {row : Row fs}
    {place : Nat} (h : readSettingItems readValue key place fs (items.drop place) = .ok row) :
    Row.All (ComesFrom readValue (.list items)) place fs row := by
  induction fs generalizing place with
  | nil => trivial
  | cons f fs ih =>
      cases hitem : items.drop place with
      | nil =>
          rw [hitem] at h
          cases h
      | cons item rest =>
          rw [hitem] at h
          obtain ⟨value, hvalue, hrest⟩ := exists_of_bind_eq_ok h
          obtain ⟨tail, htail, hrow⟩ := exists_of_bind_eq_ok hrest
          obtain rfl := Except.ok.inj hrow
          have hget : items[place]? = some item := by
            rw [← List.head?_drop, hitem]
            rfl
          have hnext : items.drop (place + 1) = rest := by
            rw [← List.tail_drop, hitem]
            rfl
          have hpart : (Setting.list items).part f.name place = item := by
            simp [Setting.part, hget]
          exact ⟨⟨_, hpart ▸ hvalue⟩, ih (hnext ▸ htail)⟩

/-- Every field of a record comes from the part of the section that is its own. -/
theorem comesFrom_of_readSetting {schema : Schema V} {setting : Setting} {row : schema.Value}
    (h : schema.readSetting readValue key setting = .ok row) :
    Row.All (ComesFrom readValue setting) 0 schema.fields row := by
  cases setting with
  | table members => exact comesFrom_of_readSettingMembers h
  | list items => exact comesFrom_of_readSettingItems h
  | _ => cases h

end

end Record

end TopicBroker
