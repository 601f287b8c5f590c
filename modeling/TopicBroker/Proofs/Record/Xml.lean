import TopicBroker.Proofs.Record.Elements

/-! # Records are read back from XML, but for white space

A record is read back from its text as it was, save that its texts have lost the white space at
their ends. So a record comes through XML unchanged if and only if none of its texts has any. -/

namespace TopicBroker.Record

open Xml

/-! ## Fields -/

section

variable {κ : Type} {V : κ → Type} {readValue : XmlReader V}
  {writeValue : String → (kind : κ) → V kind → List Char}
  {tokensOf : String → (kind : κ) → V kind → List Token} {g : (kind : κ) → V kind → V kind}

/-- The value that is written for a field, unless it is left out. -/
def Field.given? : (f : Field V) → f.Value → Option (V f.kind)
  | ⟨_, _, .required⟩, value => some value
  | ⟨_, _, .defaulted _⟩, value => some value
  | ⟨_, _, .optional⟩, value => value
  | ⟨_, _, .nullable⟩, value => value

def Field.map (g : (kind : κ) → V kind → V kind) : (f : Field V) → f.Value → f.Value
  | ⟨_, kind, .required⟩, value => g kind value
  | ⟨_, kind, .defaulted _⟩, value => g kind value
  | ⟨_, kind, .optional⟩, value => Option.map (g kind) value
  | ⟨_, kind, .nullable⟩, value => Option.map (g kind) value

def mapRow (g : (kind : κ) → V kind → V kind) : (fs : List (Field V)) → Row fs → Row fs
  | [], () => ()
  | f :: fs, (value, row) => (f.map g value, mapRow g fs row)

/-- The tokens of the element that a value of a field is written as, if it is written. -/
def Field.tokens (tokensOf : String → (kind : κ) → V kind → List Token) (f : Field V)
    (value : f.Value) : List Token :=
  ((f.given? value).map (tokensOf f.name f.kind)).getD []

/-- The tokens of the elements that a row is written as. -/
def rowTokens (tokensOf : String → (kind : κ) → V kind → List Token) :
    (fs : List (Field V)) → Row fs → List Token
  | [], () => []
  | f :: fs, (value, row) => f.tokens tokensOf value ++ rowTokens tokensOf fs row

/-- What a field owes its record in XML: its kind is read back, and what leaves no tokens is what is
taken for a field that was left out. -/
structure Field.ReadsBackXml (readValue : XmlReader V)
    (writeValue : String → (kind : κ) → V kind → List Char)
    (tokensOf : String → (kind : κ) → V kind → List Token) (g : (kind : κ) → V kind → V kind)
    (f : Field V) : Prop where
  isName : IsName f.name
  kind : Record.ReadsBackXml readValue writeValue tokensOf g f.kind
  leftOut : ∀ value, f.tokens tokensOf value = [] → f.absent = .ok (f.map g value)

theorem writeRowXml_cons (f : Field V) (fs : List (Field V)) (value : f.Value) (row : Row fs) :
    writeRowXml writeValue (f :: fs) (value, row) =
      ((f.given? value).map (writeValue f.name f.kind)).getD [] ++
        writeRowXml writeValue fs row := by
  obtain ⟨name, kind, _ | _ | _ | _⟩ := f <;> rfl

theorem scans_writeRowXml {fs : List (Field V)}
    (h : ∀ f ∈ fs, f.ReadsBackXml readValue writeValue tokensOf g) (row : Row fs) :
    Scans (fun _ => True) (writeRowXml writeValue fs row) (rowTokens tokensOf fs row) := by
  induction fs with
  | nil => exact Scans.nil _
  | cons f fs ih =>
      obtain ⟨value, row⟩ := row
      have hrest := ih (fun g hg => h g (List.mem_cons_of_mem _ hg)) row
      rw [writeRowXml_cons, rowTokens, Field.tokens]
      cases f.given? value with
      | none => exact (Scans.nil _).append hrest
      | some value =>
          have hf := h f List.mem_cons_self
          exact (hf.kind.scans hf.isName value).append hrest

/-- The tokens of a field are those of an element of its name, if there are any. -/
theorem Field.ReadsBackXml.opens {f : Field V}
    (h : f.ReadsBackXml readValue writeValue tokensOf g) (value : f.Value) :
    f.tokens tokensOf value = [] ∨ ∃ given inside, f.given? value = some given ∧
      f.tokens tokensOf value = .opening ⟨f.name.toList, []⟩ :: inside := by
  rw [Field.tokens]
  cases hgiven : f.given? value with
  | none => exact .inl rfl
  | some given =>
      refine (h.kind.opens f.name given).imp id ?_
      rintro ⟨inside, hinside⟩
      exact ⟨given, inside, rfl, hinside⟩

/-- In front of the tokens of fields of other names there are no more items of a list. -/
theorem endsItems_rowTokens {name : String} {fs : List (Field V)}
    (h : ∀ f ∈ fs, f.ReadsBackXml readValue writeValue tokensOf g)
    (hname : ∀ f ∈ fs, f.name ≠ name) (row : Row fs) (rest : List Token) :
    EndsItems name (rowTokens tokensOf fs row ++ .closing :: rest) := by
  induction fs with
  | nil => exact ⟨_, _, rfl, .inl rfl⟩
  | cons f fs ih =>
      obtain ⟨value, row⟩ := row
      rw [rowTokens, List.append_assoc]
      rcases (h f List.mem_cons_self).opens value with hnone | ⟨given, inside, -, htokens⟩
      · rw [hnone]
        exact ih (fun g hg => h g (List.mem_cons_of_mem _ hg))
          (fun g hg => hname g (List.mem_cons_of_mem _ hg)) row
      · rw [htokens]
        exact ⟨_, _, rfl, .inr ⟨f.name, hname f List.mem_cons_self, rfl⟩⟩

/-- Tags without attributes mark nothing as absent. -/
theorem readOption_of_ok {α : Type} {record name : List Char} {c rest : Cursor}
    {value : Except Fault (α × Cursor)} {x : α} (h : value = .ok (x, rest)) :
    readOption ⟨record, []⟩ ⟨name, []⟩ c value = .ok (some x, rest) := by
  rw [h]
  rfl

/-- An element of a field is read as the value that comes through. -/
theorem Field.ReadsBackXml.readXml {f : Field V}
    (h : f.ReadsBackXml readValue writeValue tokensOf g) {value : f.Value} {inside : List Token}
    (htokens : f.tokens tokensOf value = .opening ⟨f.name.toList, []⟩ :: inside)
    (record : String) (depth : Nat) {rest : List Token} (hrest : EndsItems f.name rest) :
    f.readXml readValue ⟨record.toList, []⟩ ⟨f.name.toList, []⟩
        (Cursor.inFront (depth + 2) (inside ++ rest)) =
      .ok (f.map g value, Cursor.inFront (depth + 1) rest) := by
  obtain ⟨name, kind, _ | _ | _ | _⟩ := f
  · exact h.kind.reads htokens depth hrest
  · exact h.kind.reads htokens depth hrest
  · cases value with
    | none => cases htokens
    | some value =>
        have hread := h.kind.reads htokens depth hrest
        exact readOption_of_ok hread
  · cases value with
    | none => cases htokens
    | some value =>
        have hread := h.kind.reads htokens depth hrest
        exact readOption_of_ok hread

/-! ## Slots -/

theorem localName_of_isName {name : String} (h : IsName name) :
    localName name.toList = name.toList := by
  have hmark : ∀ cs : List Char, (∀ c ∈ cs, c.isAlphanum = true) →
      splitAtMark? [':'] cs = none := by
    intro cs hcs
    induction cs with
    | nil => rfl
    | cons c cs ih =>
        have hcolon := (ne_of_isAlphanum (hcs c List.mem_cons_self) (d := ':') (by decide)).symm
        have hrest := ih fun d hd => hcs d (List.mem_cons_of_mem _ hd)
        simp [splitAtMark?, hcolon, hrest]
  rw [localName, splitName, hmark name.toList h.2]

/-- The slots that a reader of fields fills on its way to the end of a record, with the names of the
elements that it meets. -/
inductive Fills (readValue : XmlReader V) (record : Tag) (fs : List (Field V)) :
    List String → Slots fs → Cursor → Slots fs → Cursor → Prop where
  | closed {slots : Slots fs} {c rest : Cursor} (hclosed : c.next? = some (.closed, rest)) :
      Fills readValue record fs [] slots c slots rest
  | field {name : String} {names : List String} {slots filled slots' : Slots fs}
      {c inside behind rest : Cursor} (hname : IsName name)
      (hopened : c.next? = some (.opened ⟨name.toList, []⟩, inside))
      (hfill : Slots.fillXml readValue record ⟨name.toList, []⟩ inside fs slots =
        .ok (some (filled, behind)))
      (hsize : behind.size < c.size)
      (hrest : Fills readValue record fs names filled behind slots' rest) :
      Fills readValue record fs (name :: names) slots c slots' rest

variable {record : Tag} {fs : List (Field V)} {names : List String} {slots slots' : Slots fs}
  {c rest : Cursor}

theorem Fills.length_le (h : Fills readValue record fs names slots c slots' rest) :
    names.length ≤ c.size := by
  induction h with
  | closed => exact Nat.zero_le _
  | field hname hopened hfill hsize hrest ih =>
      exact Nat.succ_le_of_lt (Nat.lt_of_le_of_lt ih hsize)

theorem Fills.readFields (h : Fills readValue record fs names slots c slots' rest) {fuel : Nat}
    (hfuel : names.length < fuel) :
    readFields readValue record fs fuel slots c = .ok (slots', rest) := by
  induction h generalizing fuel with
  | closed hclosed =>
      obtain ⟨fuel, rfl⟩ : ∃ n, fuel = n + 1 := ⟨fuel - 1, by omega⟩
      simp [Record.readFields, hclosed, orUnreadable]
  | field hname hopened hfill hsize hrest ih =>
      obtain ⟨fuel, rfl⟩ : ∃ n, fuel = n + 1 := ⟨fuel - 1, by omega⟩
      have hread := ih (Nat.lt_of_succ_lt_succ hfuel)
      simp [Record.readFields, hopened, orUnreadable, hfill, hread]

/-- Elements of other names do not touch the first slot. -/
theorem Fills.skipField (h : Fills readValue record fs names slots c slots' rest) {f : Field V}
    (hname : f.name ∉ names) (slot : Option f.Value) :
    Fills readValue record (f :: fs) names (slot, slots) c (slot, slots') rest := by
  induction h with
  | closed hclosed => exact .closed hclosed
  | field hother hopened hfill hsize hrest ih =>
      rw [List.mem_cons, not_or] at hname
      refine .field hother hopened ?_ hsize (ih hname.2)
      have hne : f.name.toList ≠ localName _ :=
        (localName_of_isName hother).symm ▸ fun heq => hname.1 (String.toList_inj.mp heq)
      simp only [Slots.fillXml, if_neg hne, hfill]
      rfl

/-- The elements of a row fill the slots so that closing them gives the row as it comes through. -/
theorem fills_row {fs : List (Field V)}
    (h : ∀ f ∈ fs, f.ReadsBackXml readValue writeValue tokensOf g)
    (hnames : (fs.map (·.name)).Nodup) (row : Row fs) (record : String) (depth : Nat)
    (rest : List Token) :
    ∃ names slots, names ⊆ fs.map (·.name) ∧
      Fills readValue ⟨record.toList, []⟩ fs names (Slots.empty fs)
        (Cursor.inFront (depth + 1) (rowTokens tokensOf fs row ++ .closing :: rest)) slots
        (Cursor.inFront depth rest) ∧
      slots.close fs = .ok (mapRow g fs row) := by
  induction fs with
  | nil => exact ⟨[], (), List.Subset.refl _, .closed (Cursor.next?_closing depth rest), rfl⟩
  | cons f fs ih =>
      obtain ⟨value, row⟩ := row
      rw [List.map_cons, List.nodup_cons] at hnames
      have hf := h f List.mem_cons_self
      have hfs : ∀ g' ∈ fs, g'.ReadsBackXml readValue writeValue tokensOf g :=
        fun g' hg => h g' (List.mem_cons_of_mem _ hg)
      obtain ⟨names, slots, hsub, hfills, hclose⟩ := ih hfs hnames.2 row
      have hskip := hfills.skipField fun hmem => hnames.1 (hsub hmem)
      rcases hf.opens value with hnone | ⟨given, inside, -, htokens⟩
      · refine ⟨names, (none, slots), List.subset_cons_of_subset _ hsub, ?_, ?_⟩
        · rw [rowTokens, hnone]
          exact hskip none
        · simp only [Slots.close, hf.leftOut value hnone, hclose]
          rfl
      · refine ⟨f.name :: names, (some (f.map g value), slots),
          List.cons_subset_cons _ hsub, ?_, ?_⟩
        · have hends : EndsItems f.name (rowTokens tokensOf fs row ++ .closing :: rest) :=
            endsItems_rowTokens hfs
              (fun g' hg heq => hnames.1 (List.mem_map.mpr ⟨g', hg, heq⟩)) row rest
          have hread := hf.readXml htokens record depth hends
          rw [rowTokens, htokens, List.append_assoc, List.cons_append]
          refine .field hf.isName (Cursor.next?_opening _ _ _) ?_ (size_inFront_lt _ _ _ _ _)
            (hskip _)
          rw [Slots.empty, Slots.fillXml, if_pos (localName_of_isName hf.isName).symm]
          simp only [hread]
          rfl
        · simp only [Slots.close, hclose]
          rfl

/-! ## Records -/

/-- A record is read from the tokens that it is written as. -/
theorem Schema.readXml_rowTokens {schema : Schema V}
    (h : ∀ f ∈ schema.fields, f.ReadsBackXml readValue writeValue tokensOf g)
    (hnames : (schema.fields.map (·.name)).Nodup) (row : schema.Value) (name : String)
    (depth : Nat) (rest : List Token) :
    schema.readXml readValue ⟨name.toList, []⟩
        (Cursor.inFront (depth + 1) (rowTokens tokensOf schema.fields row ++ .closing :: rest)) =
      .ok (mapRow g schema.fields row, Cursor.inFront depth rest) := by
  obtain ⟨names, slots, -, hfills, hclose⟩ := fills_row h hnames row name depth rest
  have hfields := hfills.readFields (Nat.lt_succ_of_le hfills.length_le)
  have hvalid : (Tag.mk name.toList []).hasValidAttributes = true := rfl
  rw [Schema.readXml, if_pos hvalid, hfields]
  simp only [ok_bind, hclose]

end

/-- A value as it comes through XML. -/
def Kind.trim : (kind : Kind) → kind.Value → kind.Value
  | .leaf kind, value => kind.trim value
  | .record schema, row => mapRow Leaf.trim schema.fields row

def Kind.tokens (name : String) : (kind : Kind) → kind.Value → List Token
  | .leaf kind, value => kind.tokens name value
  | .record schema, row => elementTokens name (rowTokens Leaf.tokens schema.fields row)

/-! ## Schemas -/

/-- Every value of the kind is written as one element. -/
def Leaf.isSingle : Leaf → Bool
  | .texts => false
  | .integer _ | .text | .bytes => true

/-- The fields have different names, which may name elements, and fit. -/
def Schema.FitsXml {κ : Type} {V : κ → Type} (fits : Field V → Bool) (schema : Schema V) : Prop :=
  (schema.fields.map (·.name)).Nodup ∧ ∀ f ∈ schema.fields, IsName f.name ∧ fits f = true

instance {κ : Type} {V : κ → Type} (fits : Field V → Bool) (schema : Schema V) :
    Decidable (schema.FitsXml fits) :=
  inferInstanceAs (Decidable (_ ∧ _))

/-- An empty list leaves no elements, so it has to be what a list that was left out is taken for.
There are no lists inside inner records. -/
def Field.fitsXml : Field Kind.Value → Bool
  | ⟨_, .leaf .texts, .defaulted []⟩ => true
  | ⟨_, .leaf .texts, _⟩ => false
  | ⟨_, .leaf _, _⟩ => true
  | ⟨_, .record schema, _⟩ => decide (schema.FitsXml fun f => f.kind.isSingle)

theorem Field.absent_of_tokens_eq_nil {κ : Type} {V : κ → Type}
    {tokensOf : String → (kind : κ) → V kind → List Token} {g : (kind : κ) → V kind → V kind}
    {f : Field V} (h : ∀ value, tokensOf f.name f.kind value ≠ []) (value : f.Value)
    (hnone : f.tokens tokensOf value = []) : f.absent = .ok (f.map g value) := by
  obtain ⟨name, kind, _ | _ | _ | _⟩ := f
  · exact absurd hnone (h value)
  · exact absurd hnone (h value)
  · cases value with
    | none => rfl
    | some value => exact absurd hnone (h value)
  · cases value with
    | none => rfl
    | some value => exact absurd hnone (h value)

theorem Leaf.tokens_ne_nil {leaf : Leaf} (h : leaf.isSingle = true) (name : String)
    (value : leaf.Value) : leaf.tokens name value ≠ [] := by
  cases leaf with
  | integer range => exact List.cons_ne_nil _ _
  | text => exact List.cons_ne_nil _ _
  | texts => cases h
  | bytes => exact List.cons_ne_nil _ _

theorem Kind.readsBackXml_leaf (leaf : Leaf) :
    ReadsBackXml Kind.readXml Kind.writeXml Kind.tokens Kind.trim (.leaf leaf) := by
  have hleaf := Leaf.readsBackXml leaf
  exact ⟨hleaf.scans, hleaf.opens, hleaf.reads⟩

theorem Kind.readsBackXml_record {schema : FlatSchema}
    (h : schema.FitsXml fun f => f.kind.isSingle) :
    ReadsBackXml Kind.readXml Kind.writeXml Kind.tokens Kind.trim (.record schema) := by
  have hfields : ∀ f ∈ schema.fields, f.ReadsBackXml (fun kind tag c => Leaf.readXml tag kind c)
      Leaf.writeXml Leaf.tokens Leaf.trim := by
    intro f hf
    obtain ⟨hname, hsingle⟩ := h.2 f hf
    exact ⟨hname, Leaf.readsBackXml f.kind,
      Field.absent_of_tokens_eq_nil (Leaf.tokens_ne_nil hsingle f.name)⟩
  refine ⟨?_, fun _ _ => .inr ⟨_, rfl⟩, ?_⟩
  · intro name hname row
    have hrow := scans_writeRowXml hfields row
    exact scans_element hname (hrow.imp fun _ _ => trivial) fun hempty => (hempty ▸ hrow).eq_nil
  · intro name row inside hinside depth rest hrest
    obtain rfl := (List.cons.inj hinside).2
    have hread := Schema.readXml_rowTokens hfields h.1 row name (depth + 1) rest
    rw [List.append_assoc]
    exact hread

theorem Field.readsBackXml {f : Field Kind.Value} (hname : IsName f.name)
    (h : f.fitsXml = true) : f.ReadsBackXml Kind.readXml Kind.writeXml Kind.tokens Kind.trim := by
  obtain ⟨name, leaf | schema, presence⟩ := f
  · refine ⟨hname, Kind.readsBackXml_leaf leaf, ?_⟩
    cases hsingle : leaf.isSingle with
    | true => exact absent_of_tokens_eq_nil fun value => Leaf.tokens_ne_nil hsingle name value
    | false =>
        obtain rfl : leaf = .texts := by
          cases leaf <;> first | rfl | cases hsingle
        rcases presence with _ | (_ | ⟨s, ss⟩) | _ | _
        · cases h
        · intro ss hnone
          cases ss with
          | nil => rfl
          | cons s ss => cases hnone
        · cases h
        · cases h
        · cases h
  · have hschema : schema.FitsXml fun f => f.kind.isSingle := of_decide_eq_true h
    exact ⟨hname, Kind.readsBackXml_record hschema,
      absent_of_tokens_eq_nil fun _ => List.cons_ne_nil _ _⟩

/-! ## Texts of values -/

/-- The texts in a simple value. -/
def Leaf.textsIn : (leaf : Leaf) → leaf.Value → List String
  | .integer _, _ => []
  | .text, s => [s]
  | .texts, ss => ss
  | .bytes, _ => []

/-- The texts in a row. -/
def rowTexts {κ : Type} {V : κ → Type} (textsIn : (kind : κ) → V kind → List String) :
    (fs : List (Field V)) → Row fs → List String
  | [], () => []
  | f :: fs, (value, row) =>
    ((f.given? value).map (textsIn f.kind)).getD [] ++ rowTexts textsIn fs row

def Kind.textsIn : (kind : Kind) → kind.Value → List String
  | .leaf kind, value => kind.textsIn value
  | .record schema, row => rowTexts Leaf.textsIn schema.fields row

theorem trimText_eq_self_iff {s : String} : trimText s = s ↔ IsTrim s.toList := by
  rw [← trimEnds_eq_self_iff, trimText, ← String.toList_inj, String.toList_ofList]

theorem Leaf.trim_eq_self_iff (leaf : Leaf) (value : leaf.Value) :
    leaf.trim value = value ↔ ∀ s ∈ leaf.textsIn value, IsTrim s.toList := by
  cases leaf with
  | integer range => exact iff_of_true rfl (by simp [textsIn])
  | text => simpa [trim, textsIn] using trimText_eq_self_iff
  | texts =>
      have hmap : value.map trimText = value.map id ↔ ∀ s ∈ value, trimText s = id s :=
        List.map_inj_left
      simpa [trim, textsIn, trimText_eq_self_iff] using hmap
  | bytes => exact iff_of_true rfl (by simp [textsIn])

theorem mapRow_eq_self_iff {κ : Type} {V : κ → Type} {g : (kind : κ) → V kind → V kind}
    {textsIn : (kind : κ) → V kind → List String}
    (h : ∀ kind value, g kind value = value ↔ ∀ s ∈ textsIn kind value, IsTrim s.toList)
    (fs : List (Field V)) (row : Row fs) :
    mapRow g fs row = row ↔ ∀ s ∈ rowTexts textsIn fs row, IsTrim s.toList := by
  induction fs with
  | nil => exact iff_of_true rfl nofun
  | cons f fs ih =>
      obtain ⟨value, row⟩ := row
      have hvalue : f.map g value = value ↔
          ∀ s ∈ ((f.given? value).map (textsIn f.kind)).getD [], IsTrim s.toList := by
        obtain ⟨name, kind, _ | _ | _ | _⟩ := f
        · exact h kind value
        · exact h kind value
        · cases value with
          | none => exact iff_of_true rfl nofun
          | some value => exact Option.some_inj.trans (h kind value)
        · cases value with
          | none => exact iff_of_true rfl nofun
          | some value => exact Option.some_inj.trans (h kind value)
      rw [mapRow, rowTexts, Prod.mk.injEq, hvalue, ih, List.forall_mem_append]

theorem Kind.trim_eq_self_iff (kind : Kind) (value : kind.Value) :
    kind.trim value = value ↔ ∀ s ∈ kind.textsIn value, IsTrim s.toList := by
  cases kind with
  | leaf leaf => exact leaf.trim_eq_self_iff value
  | record schema => exact mapRow_eq_self_iff Leaf.trim_eq_self_iff schema.fields value

/-! ## Values of types with a schema -/

section

variable {α : Type} [Structured α]

/-- A value as it comes through XML: its texts have lost the white space at their ends. -/
def trimmed (x : α) : α :=
  Structured.ofRow (mapRow Kind.trim (Structured.shape α).fields (Structured.toRow x))

/-- The texts that a value holds. -/
def textsOf (x : α) : List String :=
  rowTexts Kind.textsIn (Structured.shape α).fields (Structured.toRow x)

/-- Every value is read back from its XML text, but for the white space at the ends of its texts. -/
theorem fromXmlText_toXmlText (hname : IsName (Structured.shape α).name)
    (h : (Structured.shape α).FitsXml Field.fitsXml) (x : α) :
    fromXmlText (toXmlText x) = .ok (trimmed x) := by
  have hfields : ∀ f ∈ (Structured.shape α).fields,
      f.ReadsBackXml Kind.readXml Kind.writeXml Kind.tokens Kind.trim :=
    fun f hf => Field.readsBackXml (h.2 f hf).1 (h.2 f hf).2
  have hrow := scans_writeRowXml hfields (Structured.toRow x)
  have hscan := scan_element hname (hrow.imp fun _ _ => trivial)
    fun hempty => (hempty ▸ hrow).eq_nil
  have hread := Schema.readXml_rowTokens hfields h.1 (Structured.toRow x)
    (Structured.shape α).name 0 []
  have hopened := Cursor.next?_opening 0 (Structured.shape α).name.toList
    (rowTokens Kind.tokens (Structured.shape α).fields (Structured.toRow x) ++ [.closing])
  have hstart : Cursor.ofText (toXmlText x) = Cursor.inFront 0 (elementTokens
      (Structured.shape α).name
      (rowTokens Kind.tokens (Structured.shape α).fields (Structured.toRow x))) := by
    rw [Cursor.ofText, toXmlText, hscan]
    rfl
  rw [fromXmlText, hstart, elementTokens, hopened]
  simp only [orUnreadable, Option.elim, ok_bind, hread]
  rfl

end

end TopicBroker.Record
