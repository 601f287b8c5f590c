import TopicBroker.Proofs.Action
import TopicBroker.Proofs.Base64
import TopicBroker.Proofs.Text.Digits
import TopicBroker.Proofs.Xml.ReadBack
import TopicBroker.Record.Xml

/-! # Simple values are read back from XML

Numbers and bytes are read from their elements as they were. Texts are read without the white space
at their ends. -/

namespace TopicBroker.Record

open Xml

/-! ## Content -/

/-- The characters are written and read as they are. -/
def Plain (cs : List Char) : Prop :=
  ∀ c ∈ cs, c ≠ '<' ∧ c ≠ '&' ∧ isSpace c = false

theorem Plain.isTrim {cs : List Char} (h : Plain cs) : IsTrim cs := by
  refine ⟨?_, ?_⟩
  · intro c hc
    exact (h c (List.mem_of_head? hc)).2.2
  · intro c hc
    exact (h c (List.mem_of_getLast? hc)).2.2

theorem unescape?_of_plain {cs : List Char} (h : Plain cs) : unescape? cs = some cs := by
  induction cs with
  | nil => rfl
  | cons c cs ih =>
      have hampersand := (h c List.mem_cons_self).2.1
      have hrest := ih fun d hd => h d (List.mem_cons_of_mem _ hd)
      rw [unescape?] at hrest ⊢
      simp [unescapeFrom?, hrest]

theorem plain_of_isDigit {c : Char} (h : c.isDigit = true) :
    c ≠ '<' ∧ c ≠ '&' ∧ isSpace c = false := by
  have halnum : c.isAlphanum = true := by simp [Char.isAlphanum, h]
  exact ⟨ne_of_isAlphanum halnum (by decide), ne_of_isAlphanum halnum (by decide),
    isSpace_of_isAlphanum halnum⟩

theorem plain_decimal (n : Int) : Plain (Text.decimal n) := by
  have hdigits : Plain (Text.digits n.natAbs) :=
    fun c hc => plain_of_isDigit (Text.isDigit_of_mem_digits hc)
  unfold Text.decimal
  split
  · exact List.forall_mem_cons.mpr ⟨by decide, hdigits⟩
  · exact hdigits

theorem plain_letter (n : Nat) :
    Base64.letter n ≠ '<' ∧ Base64.letter n ≠ '&' ∧ isSpace (Base64.letter n) = false := by
  by_cases h : n < 64
  · revert n
    decide
  · have hslash : Base64.letter n = '/' := by
      simp only [Base64.letter]
      repeat rw [if_neg (by omega)]
    rw [hslash]
    decide

theorem plain_encode (bytes : List UInt8) : Plain (Base64.encode bytes) := by
  have hpad : '=' ≠ '<' ∧ '=' ≠ '&' ∧ isSpace '=' = false := by decide
  induction bytes using Base64.encode.induct with
  | case1 => simp [Base64.encode, Plain]
  | case2 a => simp [Base64.encode, Plain, plain_letter, hpad]
  | case3 a b => simp [Base64.encode, Plain, plain_letter, hpad]
  | case4 a b c rest ih => simpa [Base64.encode, Plain, plain_letter] using ih

theorem readContent_textTokens {raw cs : List Char} (hcs : unescape? (trimEnds raw) = some cs)
    (depth : Nat) (tokens : List Token) :
    readContent (Cursor.inFront (depth + 1) (textTokens raw ++ .closing :: tokens)) =
      .ok (cs, Cursor.inFront depth tokens) := by
  by_cases h : trimFront raw = []
  · obtain rfl : cs = [] := by
      rw [trimEnds, h] at hcs
      exact (Option.some.inj hcs).symm
    rw [Cursor.inFront_textTokens h, readContent, Cursor.next?_closing]
    rfl
  · rw [readContent, Cursor.next?_textTokens h hcs]
    simp only [orUnreadable, Option.elim, ok_bind, Cursor.next?_closing]

theorem readContent_of_plain {cs : List Char} (h : Plain cs) (depth : Nat) (tokens : List Token) :
    readContent (Cursor.inFront (depth + 1) (textTokens cs ++ .closing :: tokens)) =
      .ok (cs, Cursor.inFront depth tokens) := by
  refine readContent_textTokens ?_ depth tokens
  rw [trimEnds_eq_self_iff.mpr h.isTrim, unescape?_of_plain h]

/-- A text without the white space at its ends. -/
def trimText (s : String) : String :=
  String.ofList (trimEnds s.toList)

theorem readContent_escapeText (s : String) (depth : Nat) (tokens : List Token) :
    readContent (Cursor.inFront (depth + 1) (textTokens (escapeText s) ++ .closing :: tokens)) =
      .ok (trimEnds s.toList, Cursor.inFront depth tokens) := by
  refine readContent_textTokens ?_ depth tokens
  rw [escapeText, trimEnds_escape, unescape?_escape]

theorem hexDigit?_of_isDigit {c : Char} (h : c.isDigit = true) :
    Json.hexDigit? c = some (c.toNat - '0'.toNat) := by
  rw [Char.isDigit_iff_toNat] at h
  have hrange : '0' ≤ c ∧ c ≤ '9' := by
    simpa [Char.le_def, UInt32.le_iff_toNat_le] using h
  rw [Json.hexDigit?, if_pos hrange]

theorem foldlM_of_isDigit {cs : List Char} (h : ∀ c ∈ cs, c.isDigit = true) (start : Nat) :
    cs.foldlM (fun n c => do
      let d ← Json.hexDigit? c
      if d < 10 then some (n * 10 + d) else none) start =
      some (Nat.ofDigitChars 10 cs start) := by
  induction cs generalizing start with
  | nil => rfl
  | cons c cs ih =>
      have hc := h c List.mem_cons_self
      have hbound := Text.toNat_of_isDigit hc
      have hlt : c.toNat - '0'.toNat < 10 := by
        change c.toNat - 48 < 10
        omega
      have hrest := ih (fun d hd => h d (List.mem_cons_of_mem _ hd))
        (10 * start + (c.toNat - '0'.toNat))
      rw [List.foldlM_cons, hexDigit?_of_isDigit hc, Nat.ofDigitChars_cons]
      simpa only [Option.bind_eq_bind, Option.bind_some, if_pos hlt, Nat.mul_comm start 10]
        using hrest

theorem digitsValue?_digits (n : Nat) : digitsValue? 10 (Text.digits n) = some n := by
  have hne : (Text.digits n).isEmpty = false := by
    simp [Text.digits, Nat.toDigits_ne_nil]
  rw [digitsValue?, hne, if_neg (by simp), foldlM_of_isDigit fun _ => Text.isDigit_of_mem_digits]
  exact congrArg some (Text.value_digits n)

theorem wholeNumber?_decimal (n : Int) : wholeNumber? (Text.decimal n) = some n := by
  have hvalue := digitsValue?_digits n.natAbs
  have hdigit : ∀ c ∈ Text.digits n.natAbs, c.isDigit = true :=
    fun _ => Text.isDigit_of_mem_digits
  obtain ⟨c, cs, hdigits⟩ := List.exists_cons_of_ne_nil (l := Text.digits n.natAbs)
    Nat.toDigits_ne_nil
  rw [hdigits] at hvalue hdigit
  rw [Text.decimal, hdigits]
  split
  · next hneg =>
      have habs : -(n.natAbs : Int) = n := by omega
      simp only [wholeNumber?, hvalue, List.isEmpty_cons, Bool.false_eq_true, if_false]
      exact congrArg some habs
  · next hpos =>
      have hminus : c ≠ '-' := by
        rintro rfl
        exact absurd (hdigit '-' List.mem_cons_self) (by decide)
      have hplus : c ≠ '+' := by
        rintro rfl
        exact absurd (hdigit '+' List.mem_cons_self) (by decide)
      have habs : (n.natAbs : Int) = n := by omega
      rw [wholeNumber?]
      · simp only [hvalue, List.isEmpty_cons, Bool.false_eq_true, if_false]
        exact congrArg some habs
      · exact fun ds heq => hminus (List.cons.inj heq).1
      · exact fun ds heq => hplus (List.cons.inj heq).1

/-! ## Kinds -/

/-- In front of what is no element of a given name: an end tag, or a start tag of another name. -/
def EndsItems (name : String) (tokens : List Token) : Prop :=
  ∃ token behind, tokens = token :: behind ∧
    (token = .closing ∨ ∃ other : String, other ≠ name ∧ token = .opening ⟨other.toList, []⟩)

/-- What a kind owes its records in XML. Its values are scanned as the given tokens, and read from
them as `g` takes them to be; only a list may have no tokens at all. -/
structure ReadsBackXml {κ : Type} {V : κ → Type} (readValue : XmlReader V)
    (writeValue : String → (kind : κ) → V kind → List Char)
    (tokens : String → (kind : κ) → V kind → List Token) (g : (kind : κ) → V kind → V kind)
    (kind : κ) : Prop where
  scans : ∀ {name}, IsName name → ∀ value,
    Scans (fun _ => True) (writeValue name kind value) (tokens name kind value)
  opens : ∀ name value, tokens name kind value = [] ∨
    ∃ inside, tokens name kind value = .opening ⟨name.toList, []⟩ :: inside
  reads : ∀ {name value inside}, tokens name kind value = .opening ⟨name.toList, []⟩ :: inside →
    ∀ depth {rest}, EndsItems name rest →
      readValue kind ⟨name.toList, []⟩ (Cursor.inFront (depth + 2) (inside ++ rest)) =
        .ok (g kind value, Cursor.inFront (depth + 1) rest)

/-- The tokens of elements of one name, one for each text. -/
def textElements (name : String) (ss : List String) : List Token :=
  ss.flatMap fun s => elementTokens name (textTokens (escapeText s))

/-- The tokens of the elements that a value of a simple kind is written as. -/
def Leaf.tokens (name : String) : (leaf : Leaf) → leaf.Value → List Token
  | .integer _, n => elementTokens name (textTokens (Text.decimal n.val))
  | .text, s => elementTokens name (textTokens (escapeText s))
  | .texts, ss => textElements name ss
  | .bytes, bs => elementTokens name (textTokens (Base64.encode bs))

/-- A simple value as it comes through XML. -/
def Leaf.trim : (leaf : Leaf) → leaf.Value → leaf.Value
  | .integer _, n => n
  | .text, s => trimText s
  | .texts, ss => ss.map trimText
  | .bytes, bs => bs

theorem textElements_cons_append (name : String) (s : String) (ss : List String)
    (rest : List Token) :
    textElements name (s :: ss) ++ rest =
      .opening ⟨name.toList, []⟩ ::
        (textTokens (escapeText s) ++ .closing :: (textElements name ss ++ rest)) := by
  simp [textElements, elementTokens]

theorem scans_textElement {name : String} (hname : IsName name) {raw : List Char}
    (h : ∀ c ∈ raw, c ≠ '<') :
    Scans (fun _ => True) (element name raw) (elementTokens name (textTokens raw)) := by
  refine scans_element hname (scans_text h) ?_
  rintro rfl
  rfl

theorem ne_of_mem_escapeText {s : String} : ∀ c ∈ escapeText s, c ≠ '<' := by
  intro c hc
  obtain ⟨d, -, hd⟩ := List.mem_flatMap.mp hc
  exact ne_of_mem_escape hd

theorem scans_textElements {name : String} (hname : IsName name) (ss : List String) :
    Scans (fun _ => True) (ss.flatMap fun s => element name (escapeText s))
      (textElements name ss) := by
  induction ss with
  | nil => exact Scans.nil _
  | cons s ss ih => exact (scans_textElement hname ne_of_mem_escapeText).append ih

/-- The tokens behind an element are fewer than those in front of it. -/
theorem size_inFront_lt (depth other : Nat) (name : List Char) (inside rest : List Token) :
    (Cursor.inFront depth rest).size <
      (Cursor.inFront other (.opening ⟨name, []⟩ :: (inside ++ rest))).size := by
  have hrest : (Cursor.inFront depth rest).size ≤ rest.length := Cursor.size_start_le ..
  rw [Cursor.inFront_opening]
  simp only [Cursor.size, Option.toList_some, List.length_singleton, List.length_append] at hrest ⊢
  omega

theorem length_le_size (name : String) (ss : List String) (depth : Nat) (rest : List Token) :
    ss.length ≤ (Cursor.inFront depth
      (textElements name ss ++ rest)).size := by
  induction ss with
  | nil => exact Nat.zero_le _
  | cons s ss ih =>
      have hlt := size_inFront_lt depth depth name.toList
        (textTokens (escapeText s) ++ [.closing]) (textElements name ss ++ rest)
      rw [textElements_cons_append]
      rw [List.append_assoc, List.singleton_append] at hlt
      exact Nat.succ_le_of_lt (Nat.lt_of_le_of_lt ih hlt)

/-- The items of a list are read up to what is none. -/
theorem readItemsXml_tokens (name : String) (ss : List String) (depth : Nat) {rest : List Token}
    (hrest : EndsItems name rest) {fuel : Nat} (hfuel : ss.length < fuel) :
    readItemsXml name.toList fuel (Cursor.inFront (depth + 1)
        (textElements name ss ++ rest)) =
      .ok (ss.map trimText, Cursor.inFront (depth + 1) rest) := by
  obtain ⟨fuel, rfl⟩ : ∃ n, fuel = n + 1 := ⟨fuel - 1, by omega⟩
  induction ss generalizing fuel with
  | nil =>
      rw [textElements, List.flatMap_nil, List.nil_append]
      obtain ⟨token, behind, rfl, rfl | ⟨other, hother, rfl⟩⟩ := hrest
      · simp [readItemsXml, Cursor.next?_closing, orUnreadable]
      · have hname : other.toList ≠ name.toList := fun h => hother (String.toList_inj.mp h)
        simp [readItemsXml, Cursor.next?_opening, orUnreadable, hname]
  | cons s ss ih =>
      obtain ⟨fuel, rfl⟩ : ∃ n, fuel = n + 1 := ⟨fuel - 1, by simp at hfuel; omega⟩
      have hitems := ih fuel (by simpa using hfuel)
      have hcontent := readContent_escapeText s (depth + 1)
        (textElements name ss ++ rest)
      rw [textElements_cons_append, readItemsXml, Cursor.next?_opening]
      simp only [orUnreadable, Option.elim, ok_bind, if_true, hcontent, hitems]
      rfl

/-- Values that are each written as one element are read back if the texts in the elements are. -/
theorem readsBackXml_of_element {κ : Type} {V : κ → Type} {readValue : XmlReader V}
    {writeValue : String → (kind : κ) → V kind → List Char}
    {tokens : String → (kind : κ) → V kind → List Token} {g : (kind : κ) → V kind → V kind}
    {kind : κ} (raw : V kind → List Char) (hraw : ∀ value, ∀ c ∈ raw value, c ≠ '<')
    (hwrite : ∀ name value, writeValue name kind value = element name (raw value))
    (htokens : ∀ name value,
      tokens name kind value = elementTokens name (textTokens (raw value)))
    (hread : ∀ tag value depth rest,
      readValue kind tag
          (Cursor.inFront (depth + 1) (textTokens (raw value) ++ .closing :: rest)) =
        .ok (g kind value, Cursor.inFront depth rest)) :
    ReadsBackXml readValue writeValue tokens g kind := by
  refine ⟨?_, fun name value => .inr ⟨_, htokens name value⟩, ?_⟩
  · intro name hname value
    rw [hwrite, htokens]
    exact scans_textElement hname (hraw value)
  · intro name value inside hinside depth rest _
    rw [htokens] at hinside
    obtain rfl := (List.cons.inj hinside).2
    rw [List.append_assoc, List.singleton_append]
    exact hread _ value (depth + 1) rest

theorem readsBackXml_texts :
    ReadsBackXml (fun leaf tag c => Leaf.readXml tag leaf c) Leaf.writeXml Leaf.tokens Leaf.trim
      .texts := by
  refine ⟨scans_textElements, ?_, ?_⟩
  · intro name ss
    cases ss with
    | nil => exact .inl rfl
    | cons s ss => exact .inr ⟨_, rfl⟩
  · intro name ss inside hinside depth rest hrest
    cases ss with
    | nil => cases hinside
    | cons s ss =>
        have htokens := textElements_cons_append name s ss rest
        rw [show textElements name (s :: ss) = _ from hinside, List.cons_append] at htokens
        have hcontent := readContent_escapeText s (depth + 1) (textElements name ss ++ rest)
        have hitems := readItemsXml_tokens name ss depth hrest
          (Nat.lt_succ_of_le (length_le_size name ss (depth + 1) rest))
        rw [(List.cons.inj htokens).2]
        simp only [Leaf.readXml, hcontent, ok_bind, hitems]
        rfl

theorem Leaf.readsBackXml (leaf : Leaf) :
    ReadsBackXml (fun leaf tag c => Leaf.readXml tag leaf c) Leaf.writeXml Leaf.tokens Leaf.trim
      leaf := by
  cases leaf with
  | integer range =>
      refine readsBackXml_of_element (fun n => Text.decimal n.val)
        (fun n c hc => (plain_decimal n.val c hc).1) (fun _ _ => rfl) (fun _ _ => rfl) ?_
      intro tag n depth rest
      have hcontent := readContent_of_plain (plain_decimal n.val) depth rest
      have hmember : range.member? n.val = some n := by simp [IntRange.member?, n.property]
      simp [readXml, hcontent, wholeNumber?_decimal, hmember, trim]
  | text =>
      refine readsBackXml_of_element escapeText
        (fun _ => ne_of_mem_escapeText) (fun _ _ => rfl) (fun _ _ => rfl) ?_
      intro tag s depth rest
      simp only [readXml, readContent_escapeText]
      rfl
  | texts => exact readsBackXml_texts
  | bytes =>
      refine readsBackXml_of_element Base64.encode
        (fun bytes c hc => (plain_encode bytes c hc).1) (fun _ _ => rfl) (fun _ _ => rfl) ?_
      intro tag bytes depth rest
      have hcontent := readContent_of_plain (plain_encode bytes) depth rest
      simp [readXml, hcontent, orUnreadable, Base64.decode?_encode, trim]

end TopicBroker.Record
