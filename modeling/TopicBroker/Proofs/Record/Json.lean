import TopicBroker.Proofs.Base64
import TopicBroker.Proofs.Json.ReadBack
import TopicBroker.Record.Line

/-! # Records are read back from JSON

A record is read back from its text when its fields have different names and its numbers are of
ranges that JSON texts hold exactly. -/

namespace TopicBroker.Record

/-! ## Kinds -/

/-- What a kind owes its records: a value is read back from its JSON value, which is a plain one and
is never taken for one left out. -/
structure ReadsBack {κ : Type} {V : κ → Type}
    (readValue : (kind : κ) → Json → Except Fault (V kind))
    (writeValue : (kind : κ) → V kind → Json) (kind : κ) : Prop where
  reads : ∀ value, readValue kind (writeValue kind value) = .ok value
  present : ∀ value, writeValue kind value ≠ .null
  plain : ∀ value, (writeValue kind value).IsPlain

instance (n : Int) : Decidable (Json.Fits n) :=
  inferInstanceAs (Decidable (_ ∧ _))

/-- The values of the kind are held exactly by a JSON text. -/
def Leaf.Exact : Leaf → Prop
  | .integer range => Json.Fits range.low ∧ Json.Fits range.high
  | .text | .texts | .bytes => True

instance : DecidablePred Leaf.Exact
  | .integer _ => inferInstanceAs (Decidable (_ ∧ _))
  | .text | .texts | .bytes => inferInstanceAs (Decidable True)

@[simp] theorem readText_ofText (s : String) : readText (.ofText s) = .ok s := rfl

theorem mapM_readText (ss : List String) : (ss.map Json.ofText).mapM readText = .ok ss := by
  induction ss with
  | nil => rfl
  | cons s ss ih => simp [ih, pure, Except.pure, bind, Except.bind]

theorem Leaf.readsBack {leaf : Leaf} (h : leaf.Exact) :
    ReadsBack Leaf.readJson Leaf.writeJson leaf := by
  cases leaf with
  | integer range =>
      refine ⟨?_, ?_, ?_⟩
      · intro n
        have hmember : range.member? n.val = some n := by simp [IntRange.member?, n.property]
        simp [readJson, writeJson, Json.ofInt, hmember]
      · intro n hnull
        cases hnull
      · intro n
        obtain ⟨hlow, hhigh⟩ := n.property
        exact ⟨Int.le_trans h.1.1 hlow, Int.lt_of_le_of_lt hhigh h.2.2⟩
  | text => exact ⟨fun _ => rfl, fun _ h => (by cases h), fun _ => trivial⟩
  | texts =>
      refine ⟨mapM_readText, fun _ h => (by cases h), ?_⟩
      intro ss
      refine Json.allPlain_iff.mpr ?_
      intro item hitem
      obtain ⟨s, -, rfl⟩ := List.mem_map.mp hitem
      trivial
  | bytes =>
      refine ⟨?_, fun _ h => (by cases h), fun _ => trivial⟩
      intro bytes
      have hdecode := Base64.decode?_encode bytes
      simp [readJson, writeJson, Json.ofText, readText, hdecode, bind, Except.bind]

/-! ## Fields -/

section

variable {κ : Type} {V : κ → Type} {readValue : (kind : κ) → Json → Except Fault (V kind)}
  {writeValue : (kind : κ) → V kind → Json}

/-- The JSON value that a value of a field is written as, unless it is left out. -/
def Field.written? (writeValue : (kind : κ) → V kind → Json) : (f : Field V) → f.Value → Option Json
  | ⟨_, kind, .required⟩, value => some (writeValue kind value)
  | ⟨_, kind, .defaulted _⟩, value => some (writeValue kind value)
  | ⟨_, kind, .optional⟩, value => value.map (writeValue kind)
  | ⟨_, kind, .nullable⟩, value => some ((value.map (writeValue kind)).getD .null)

theorem writeRow_cons (f : Field V) (fs : List (Field V)) (value : f.Value) (row : Row fs) :
    writeRow writeValue (f :: fs) (value, row) =
      ((f.written? writeValue value).map (f.name, ·)).toList ++ writeRow writeValue fs row := by
  obtain ⟨name, kind, _ | _ | _ | _⟩ := f
  · rfl
  · rfl
  · cases value <;> rfl
  · rfl

theorem Field.readJson_of_written? {f : Field V} (hkind : ReadsBack readValue writeValue f.kind)
    {value : f.Value} {json : Json} (h : f.written? writeValue value = some json) :
    f.readJson readValue json = .ok value := by
  obtain ⟨name, kind, _ | _ | _ | _⟩ := f
  · cases h
    exact hkind.reads value
  · cases h
    exact hkind.reads value
  · obtain ⟨value, rfl, rfl⟩ := Option.map_eq_some_iff.mp h
    have hread := hkind.reads value
    have hpresent := hkind.present value
    dsimp only [Field.readJson]
    split
    · next hnull => exact absurd hnull hpresent
    · rw [hread]
      rfl
  · cases h
    cases value with
    | none => rfl
    | some value =>
        have hread := hkind.reads value
        have hpresent := hkind.present value
        dsimp only [Field.readJson, Option.map_some, Option.getD_some]
        split
        · next hnull => exact absurd hnull hpresent
        · rw [hread]
          rfl

theorem Field.absent_of_written? {f : Field V} {value : f.Value}
    (h : f.written? writeValue value = none) : f.absent = .ok value := by
  obtain ⟨name, kind, _ | _ | _ | _⟩ := f
  · cases h
  · cases h
  · rw [Option.map_eq_none_iff.mp h]
    rfl
  · cases h

theorem Field.plain_of_written? {f : Field V} (hkind : ReadsBack readValue writeValue f.kind)
    {value : f.Value} {json : Json} (h : f.written? writeValue value = some json) :
    json.IsPlain := by
  obtain ⟨name, kind, _ | _ | _ | _⟩ := f
  · cases h
    exact hkind.plain value
  · cases h
    exact hkind.plain value
  · obtain ⟨value, rfl, rfl⟩ := Option.map_eq_some_iff.mp h
    exact hkind.plain value
  · cases h
    cases value with
    | none => trivial
    | some value => exact hkind.plain value

theorem name_of_mem_writeRow {fs : List (Field V)} {row : Row fs} {member : String × Json}
    (h : member ∈ writeRow writeValue fs row) : member.1 ∈ fs.map (·.name) := by
  induction fs with
  | nil => cases h
  | cons f fs ih =>
      obtain ⟨value, row⟩ := row
      rw [writeRow_cons, List.mem_append] at h
      rcases h with h | h
      · obtain ⟨json, -, rfl⟩ := Option.map_eq_some_iff.mp (Option.mem_toList.mp h)
        simp
      · exact List.mem_cons_of_mem _ (ih h)

theorem plain_of_mem_writeRow {fs : List (Field V)}
    (hkinds : ∀ f ∈ fs, ReadsBack readValue writeValue f.kind) {row : Row fs}
    {member : String × Json} (h : member ∈ writeRow writeValue fs row) : member.2.IsPlain := by
  induction fs with
  | nil => cases h
  | cons f fs ih =>
      obtain ⟨value, row⟩ := row
      rw [writeRow_cons, List.mem_append] at h
      rcases h with h | h
      · obtain ⟨json, hjson, rfl⟩ := Option.map_eq_some_iff.mp (Option.mem_toList.mp h)
        exact Field.plain_of_written? (hkinds f List.mem_cons_self) hjson
      · exact ih (fun g hg => hkinds g (List.mem_cons_of_mem _ hg)) h

/-! ## Slots -/

/-- A member of another name does not touch the first slot. -/
theorem Slots.takeMember_of_ne {f : Field V} {fs : List (Field V)} {member : Option String × Json}
    (h : member.1 ≠ some f.name) (slot : Option f.Value) (slots : Slots fs) :
    takeMember readValue (f :: fs) (slot, slots) member =
      (takeMember readValue fs slots member).map (slot, ·) := by
  obtain ⟨_ | name, json⟩ := member
  · rfl
  have hname : f.name ≠ name := fun heq => h (congrArg some heq.symm)
  simp only [takeMember, fill, hname, if_false]
  cases fill readValue fs slots name json with
  | error fault => rfl
  | ok filled =>
      cases filled with
      | some slots => rfl
      | none =>
          simp only [Except.map, Option.map_none]
          split <;> rfl

theorem Slots.foldlM_takeMember_of_ne {f : Field V} {fs : List (Field V)}
    {members : List (Option String × Json)} (h : ∀ member ∈ members, member.1 ≠ some f.name)
    (slot : Option f.Value) (slots : Slots fs) :
    members.foldlM (takeMember readValue (f :: fs)) (slot, slots) =
      (members.foldlM (takeMember readValue fs) slots).map (slot, ·) := by
  induction members generalizing slots with
  | nil => rfl
  | cons member members ih =>
      obtain ⟨hhead, htail⟩ := List.forall_mem_cons.mp h
      simp only [List.foldlM_cons, takeMember_of_ne hhead]
      cases takeMember readValue fs slots member with
      | error fault => rfl
      | ok slots => exact ih htail slots

theorem Slots.takeMember_self {f : Field V} {fs : List (Field V)} {json : Json} {value : f.Value}
    (h : f.readJson readValue json = .ok value) (slots : Slots fs) :
    takeMember readValue (f :: fs) (none, slots) (some f.name, json) = .ok (some value, slots) := by
  simp only [takeMember, fill, if_true, h]
  rfl

/-- The members that a row is written as fill the slots so that closing them gives the row. -/
theorem Slots.fill_writeRow {fs : List (Field V)}
    (hkinds : ∀ f ∈ fs, ReadsBack readValue writeValue f.kind)
    (hnames : (fs.map (·.name)).Nodup) (row : Row fs) :
    ∃ slots, ((writeRow writeValue fs row).map fun (name, value) => (some name, value)).foldlM
        (takeMember readValue fs) (Slots.empty fs) = .ok slots ∧ slots.close fs = .ok row := by
  induction fs with
  | nil => exact ⟨(), rfl, rfl⟩
  | cons f fs ih =>
      obtain ⟨value, row⟩ := row
      rw [List.map_cons, List.nodup_cons] at hnames
      obtain ⟨slots, hfold, hclose⟩ :=
        ih (fun g hg => hkinds g (List.mem_cons_of_mem _ hg)) hnames.2 row
      have hother : ∀ member ∈ (writeRow writeValue fs row).map fun (name, value) =>
          (some name, value), member.1 ≠ some f.name := by
        intro member hmember heq
        obtain ⟨written, hwritten, rfl⟩ := List.mem_map.mp hmember
        exact hnames.1 (Option.some.inj heq ▸ name_of_mem_writeRow hwritten)
      rw [writeRow_cons]
      cases hwritten : f.written? writeValue value with
      | none =>
          refine ⟨(none, slots), ?_, ?_⟩
          · simp only [Option.map_none, Option.toList_none, List.nil_append]
            rw [Slots.empty, foldlM_takeMember_of_ne hother, hfold]
            rfl
          · simp only [close, Field.absent_of_written? hwritten, hclose]
            rfl
      | some json =>
          have hread := Field.readJson_of_written? (hkinds f List.mem_cons_self) hwritten
          refine ⟨(some value, slots), ?_, ?_⟩
          · simp only [Option.map_some, Option.toList_some, List.singleton_append, List.map_cons,
              List.foldlM_cons, Slots.empty, takeMember_self hread]
            refine (foldlM_takeMember_of_ne hother _ _).trans ?_
            rw [hfold]
            rfl
          · simp only [close, hclose]
            rfl

/-! ## Records -/

/-- The fields have different names, and values that are held exactly. -/
def Schema.Exact (exact : κ → Prop) (schema : Schema V) : Prop :=
  (schema.fields.map (·.name)).Nodup ∧ ∀ f ∈ schema.fields, exact f.kind

instance (exact : κ → Prop) [DecidablePred exact] (schema : Schema V) :
    Decidable (schema.Exact exact) :=
  inferInstanceAs (Decidable (_ ∧ _))

theorem Schema.readJson_writeJson {schema : Schema V}
    (hkinds : ∀ f ∈ schema.fields, ReadsBack readValue writeValue f.kind)
    (hnames : (schema.fields.map (·.name)).Nodup) (form : Form) (record : schema.Value) :
    schema.readJson form readValue (schema.writeJson writeValue record) = .ok record := by
  obtain ⟨slots, hfold, hclose⟩ := Slots.fill_writeRow hkinds hnames record
  simp only [Schema.readJson, Schema.writeJson, Json.ofMembers, hfold]
  exact hclose

theorem Schema.plain_writeJson {schema : Schema V}
    (hkinds : ∀ f ∈ schema.fields, ReadsBack readValue writeValue f.kind) (record : schema.Value) :
    (schema.writeJson writeValue record).IsPlain := by
  refine Json.allMembersPlain_iff.mpr ?_
  intro member hmember
  obtain ⟨written, hwritten, rfl⟩ := List.mem_map.mp hmember
  exact ⟨rfl, plain_of_mem_writeRow hkinds hwritten⟩

end

/-- The values of the kind are held exactly by a JSON text. -/
def Kind.Exact : Kind → Prop
  | .leaf kind => kind.Exact
  | .record schema => schema.Exact Leaf.Exact

instance : DecidablePred Kind.Exact
  | .leaf kind => inferInstanceAs (Decidable kind.Exact)
  | .record schema => inferInstanceAs (Decidable (schema.Exact Leaf.Exact))

theorem Kind.readsBack {kind : Kind} (h : kind.Exact) (form : Form) :
    ReadsBack (Kind.readJson form) Kind.writeJson kind := by
  cases kind with
  | leaf kind =>
      have hleaf := Leaf.readsBack h
      exact ⟨hleaf.reads, hleaf.present, hleaf.plain⟩
  | record schema =>
      have hkinds : ∀ f ∈ schema.fields, ReadsBack Leaf.readJson Leaf.writeJson f.kind :=
        fun f hf => Leaf.readsBack (h.2 f hf)
      refine ⟨?_, fun _ h => (by cases h), ?_⟩
      · exact Schema.readJson_writeJson hkinds h.1 form
      · exact Schema.plain_writeJson hkinds

section

variable {α : Type} [Structured α]

/-- Every value is read back from its JSON text. -/
theorem fromJsonText_toJsonText (h : (Structured.shape α).Exact Kind.Exact) (x : α) :
    fromJsonText (toJsonText x) = .ok x := by
  have hkinds : ∀ f ∈ (Structured.shape α).fields,
      ReadsBack (Kind.readJson .streamed) Kind.writeJson f.kind :=
    fun f hf => Kind.readsBack (h.2 f hf) .streamed
  have hplain : (toJson x).IsPlain := Schema.plain_writeJson hkinds _
  have hread : (Structured.shape α).readJson .streamed (Kind.readJson .streamed) (toJson x) =
      .ok (Structured.toRow x) := Schema.readJson_writeJson hkinds h.1 .streamed _
  simp only [fromJsonText, toJsonText, Json.read_render hplain, hread]
  exact congrArg Except.ok (Structured.ofRow_toRow x)

/-- Every value is read back from its line. -/
theorem ofLine_toLine (h : (Structured.shape α).Exact Kind.Exact) (x : α) :
    ofLine (toLine x) = .ok x := by
  rw [ofLine, toLine, fromJsonText_toJsonText h]
  rfl

end

end TopicBroker.Record
