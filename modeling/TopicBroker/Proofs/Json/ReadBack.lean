import Mathlib.Data.List.TakeDrop
import TopicBroker.Json.Reader
import TopicBroker.Json.Writer
import TopicBroker.Proofs.Text.Digits

/-! # JSON texts are read back

What is written is read back, with whatever follows it left over. A value inside a text is followed
by a mark that belongs to no value, which is where the reader stops. -/

namespace TopicBroker.Json

/-- The text is empty, or starts with a mark that ends a value. -/
def Delimited : List Char → Prop
  | [] => True
  | c :: _ => c = ',' ∨ c = ']' ∨ c = '\x7d'

/-! ## Numbers -/

theorem Delimited.not_isDigit {c : Char} {rest : List Char} (h : Delimited (c :: rest)) :
    c.isDigit = false := by
  rcases h with rfl | rfl | rfl <;> decide

theorem span_isDigit {run rest : List Char} (hrun : ∀ c ∈ run, c.isDigit = true)
    (hrest : Delimited rest) : (run ++ rest).span Char.isDigit = (run, rest) := by
  rw [List.span_eq_takeWhile_dropWhile, List.takeWhile_append_of_pos hrun,
    List.dropWhile_append_of_pos hrun]
  cases rest with
  | nil => simp
  | cons c rest => simp [hrest.not_isDigit]

theorem readWhole?_digits (n : Nat) {rest : List Char} (hrest : Delimited rest) :
    readWhole? (Text.digits n ++ rest) = some (Text.digits n, rest) := by
  have hspan := span_isDigit (fun _ => Text.isDigit_of_mem_digits (n := n)) hrest
  have hread : readDigits? (Text.digits n ++ rest) = some (Text.digits n, rest) := by
    unfold readDigits?
    rw [hspan]
    split
    · next h => exact absurd (Prod.mk.inj h).1 Nat.toDigits_ne_nil
    · next h => rw [h]
  unfold readWhole?
  rw [hread]
  split
  · next c cs rest' h =>
      have hdigits : Text.digits n = '0' :: c :: cs := congrArg Prod.fst (Option.some.inj h)
      cases n with
      | zero => cases hdigits
      | succ n => exact absurd hdigits (Text.head_digits_ne_zero n.succ_pos _)
  · rfl

theorem readFraction?_of_delimited {rest : List Char} (h : Delimited rest) :
    readFraction? rest = some (none, rest) := by
  cases rest with
  | nil => rfl
  | cons c rest => rcases h with rfl | rfl | rfl <;> rfl

theorem readExponent?_of_delimited {rest : List Char} (h : Delimited rest) :
    readExponent? rest = some (none, rest) := by
  cases rest with
  | nil => rfl
  | cons c rest => rcases h with rfl | rfl | rfl <;> rfl

theorem exists_digits_eq_cons (n : Nat) :
    ∃ d ds, Text.digits n = d :: ds ∧ d.isDigit = true := by
  cases h : Text.digits n with
  | nil => exact absurd h Nat.toDigits_ne_nil
  | cons d ds => exact ⟨d, ds, rfl, Text.isDigit_of_mem_digits (n := n) (by simp [h])⟩

/-- The literal of the digits of a number, with a minus sign in front or not. -/
def literalOf (negative : Bool) (n : Nat) : Literal := ⟨negative, Text.digits n, none, none⟩

theorem readLiteral?_positive (n : Nat) {rest : List Char} (hrest : Delimited rest) :
    readLiteral? (Text.digits n ++ rest) = some (literalOf false n, rest) := by
  have hwhole := readWhole?_digits n hrest
  obtain ⟨d, ds, hdigits, hd⟩ := exists_digits_eq_cons n
  rw [hdigits, List.cons_append] at hwhole ⊢
  have hminus : d ≠ '-' := by rintro rfl; exact absurd hd (by decide)
  simp [readLiteral?, hminus, hwhole, readFraction?_of_delimited hrest,
    readExponent?_of_delimited hrest, literalOf, hdigits]

theorem readLiteral?_negative (n : Nat) {rest : List Char} (hrest : Delimited rest) :
    readLiteral? ('-' :: (Text.digits n ++ rest)) = some (literalOf true n, rest) := by
  simp [readLiteral?, readWhole?_digits n hrest, readFraction?_of_delimited hrest,
    readExponent?_of_delimited hrest, literalOf]

/-- Digits are added as long as the number fits, and it only grows on the way. -/
theorem takeDigits_of_lt (cs : List Char) (n : Nat) (h : Nat.ofDigitChars 10 cs n < wordLimit) :
    takeDigits n cs = (Nat.ofDigitChars 10 cs n, []) := by
  induction cs generalizing n with
  | nil => rfl
  | cons c cs ih =>
      have hvalue : Text.value [c] = c.toNat - '0'.toNat := by simp [Text.value_cons]
      rw [Nat.ofDigitChars_cons] at h ⊢
      have hgrows : 10 * n + (c.toNat - '0'.toNat) ≤
          Nat.ofDigitChars 10 cs (10 * n + (c.toNat - '0'.toNat)) := by
        rw [Nat.ofDigitChars_eq_ofDigitChars_zero]
        refine Nat.le_trans ?_ (Nat.le_add_right _ _)
        exact Nat.le_mul_of_pos_left _ (Nat.pow_pos (by decide))
      have hfits : 10 * n + Text.value [c] < wordLimit := by
        rw [hvalue]
        exact Nat.lt_of_le_of_lt hgrows h
      simp only [takeDigits, hfits, if_true]
      rw [hvalue]
      exact ih _ h

theorem takeDigits_digits {n : Nat} (h : n < wordLimit) :
    takeDigits 0 (Text.digits n) = (n, []) := by
  have hvalue : Nat.ofDigitChars 10 (Text.digits n) 0 = n := Text.value_digits n
  rw [takeDigits_of_lt _ _ (hvalue.symm ▸ h), hvalue]

/-- The whole numbers that are read exactly. -/
def Fits (n : Int) : Prop := -9223372036854775808 ≤ n ∧ n < 18446744073709551616

theorem readNumber?_decimal {n : Int} (h : Fits n) {rest : List Char} (hrest : Delimited rest) :
    readNumber? (Text.decimal n ++ rest) = some (some (.integer n), rest) := by
  obtain ⟨hlow, hhigh⟩ := h
  have hlimit : n.natAbs < wordLimit := by unfold wordLimit; omega
  unfold Text.decimal
  split
  · next hneg =>
      have hwhole : ¬ (n.natAbs = 0 ∨ 9223372036854775808 < n.natAbs) := by omega
      have hvalue : -((n.natAbs : Nat) : Int) = n := by omega
      simp only [List.cons_append, readNumber?, readLiteral?_negative _ hrest, Option.map_some,
        Literal.number?, literalOf, takeDigits_digits hlimit]
      simp only [List.isEmpty_nil, Bool.not_true, Bool.false_eq_true, if_true, if_false,
        if_neg hwhole, hvalue]
  · next hpos =>
      have hvalue : ((n.natAbs : Nat) : Int) = n := by omega
      simp only [readNumber?, readLiteral?_positive _ hrest, Option.map_some, Literal.number?,
        literalOf, takeDigits_digits hlimit]
      simp [hvalue]

/-! ## Texts -/

/-- The unit that a character is written as: control characters that no letter stands for are
written by their number. -/
def unitOf (c : Char) : CodeUnit :=
  if c.toNat < 0x20 ∧ c ∉ ['\n', '\r', '\t', '\x08', '\x0c'] then .escaped c.toNat else .plain c

theorem hexDigit?_hexDigit {n : Nat} (h : n < 16) : hexDigit? (hexDigit n) = some n := by
  revert n
  decide

theorem readUnits?_plain {c : Char} (hquote : c ≠ '"') (hslash : c ≠ '\\')
    (hcontrol : ¬ c.toNat < 0x20) (rest : List Char) :
    readUnits? (c :: rest) =
      (readUnits? rest).map fun (units, rest) => (.plain c :: units, rest) := by
  have hheads : ∀ d rest', c :: rest = d :: rest' → d = c := fun _ _ h => (List.cons.inj h).1.symm
  rw [readUnits?.eq_def]
  split
  · next h => cases h
  · next h => exact absurd (hheads _ _ h).symm hquote
  · next h => exact absurd (hheads _ _ h).symm hslash
  · next h => exact absurd (hheads _ _ h).symm hslash
  · next h =>
      cases h
      rw [if_neg hcontrol]

theorem readUnits?_escape (c : Char) (rest : List Char) :
    readUnits? (escape c ++ rest) =
      (readUnits? rest).map fun (units, rest) => (unitOf c :: units, rest) := by
  unfold escape
  split
  case h_8 hquote hslash hn hr ht hb hf =>
      by_cases hcontrol : c.toNat < 0x20
      · have hhigh := hexDigit?_hexDigit (n := c.toNat / 16) (by omega)
        have hlow := hexDigit?_hexDigit (n := c.toNat % 16) (by omega)
        have hquad : hexQuad? '0' '0' (hexDigit (c.toNat / 16)) (hexDigit (c.toNat % 16)) =
            some c.toNat := by
          have hzero : hexDigit? '0' = some 0 := by decide
          simp only [hexQuad?, hzero, hhigh, hlow, Option.bind_eq_bind, Option.bind_some]
          congr 1
          omega
        have hunit : unitOf c = .escaped c.toNat := by
          simp [unitOf, hcontrol]
          exact ⟨hn, hr, ht, hb, hf⟩
        simp only [hcontrol, if_true, List.cons_append, List.nil_append, readUnits?, hquad, hunit]
        cases readUnits? rest <;> rfl
      · have hunit : unitOf c = .plain c := by simp [unitOf, hcontrol]
        simp only [hcontrol, if_false, List.cons_append, List.nil_append]
        rw [readUnits?_plain hquote hslash hcontrol, hunit]
  all_goals (simp [readUnits?, unescape?, unitOf]; cases readUnits? rest <;> rfl)

theorem joinUnits?_escaped {n : Nat} (h : n < 0xD800) (units : List CodeUnit) :
    joinUnits? (.escaped n :: units) = (joinUnits? units).map (Char.ofNat n :: ·) := by
  have hhigh : isHighSurrogate n = false := by simp [isHighSurrogate]; omega
  have hlow : isLowSurrogate n = false := by simp [isLowSurrogate]; omega
  cases units with
  | nil => simp [joinUnits?, hhigh, hlow]
  | cons unit units => cases unit <;> simp [joinUnits?, hhigh, hlow]

theorem joinUnits?_unitOf (c : Char) (units : List CodeUnit) :
    joinUnits? (unitOf c :: units) = (joinUnits? units).map (c :: ·) := by
  unfold unitOf
  split
  · next h => rw [joinUnits?_escaped (by omega), Char.ofNat_toNat]
  · rfl

theorem readUnits?_escaped (cs rest : List Char) :
    readUnits? (cs.flatMap escape ++ '"' :: rest) = some (cs.map unitOf, rest) := by
  induction cs with
  | nil => rfl
  | cons c cs ih => simp [readUnits?_escape, ih]

theorem joinUnits?_map_unitOf (cs : List Char) : joinUnits? (cs.map unitOf) = some cs := by
  induction cs with
  | nil => rfl
  | cons c cs ih => simp [joinUnits?_unitOf, ih]

theorem readString?_escaped (s : String) (rest : List Char) :
    readString? (s.toList.flatMap escape ++ '"' :: rest) = some (some s, rest) := by
  simp [readString?, readUnits?_escaped, joinUnits?_map_unitOf]


/-! ## Values -/

mutual

/-- The value is read back as it is: its numbers are whole ones that fit, and every text and every
name in it is there. -/
def IsPlain : Json → Prop
  | null | bool _ | string (some _) => True
  | number (some (.integer n)) => Fits n
  | array items => AllPlain items
  | object members => AllMembersPlain members
  | number (some (.float _)) | number none | string none | broken => False

/-- All values of a list are plain. -/
def AllPlain : List Json → Prop
  | [] => True
  | item :: items => IsPlain item ∧ AllPlain items

/-- All members of a list are plain. -/
def AllMembersPlain : List (Option String × Json) → Prop
  | [] => True
  | (name, value) :: members => name.isSome ∧ IsPlain value ∧ AllMembersPlain members

end

theorem allPlain_iff {items : List Json} : AllPlain items ↔ ∀ item ∈ items, IsPlain item := by
  induction items with
  | nil => simp [AllPlain]
  | cons item items ih => simp [AllPlain, ih]

theorem allMembersPlain_iff {members : List (Option String × Json)} :
    AllMembersPlain members ↔ ∀ member ∈ members, member.1.isSome ∧ IsPlain member.2 := by
  induction members with
  | nil => simp [AllMembersPlain]
  | cons member members ih => simp [AllMembersPlain, ih, and_assoc]

/-- The mark that a value may start with: no white space and nothing that closes a list. -/
def Opens (c : Char) : Prop := isSpace c = false ∧ c ≠ ']'

theorem opens_of_isDigit {c : Char} (h : c.isDigit = true) : Opens c := by
  constructor
  · cases hspace : isSpace c with
    | false => rfl
    | true =>
        simp only [isSpace, Bool.or_eq_true, beq_iff_eq] at hspace
        rcases hspace with ((rfl | rfl) | rfl) | rfl <;> exact absurd h (by decide)
  · rintro rfl
    exact absurd h (by decide)

theorem exists_decimal_eq_cons (n : Int) :
    ∃ c cs, Text.decimal n = c :: cs ∧ (c = '-' ∨ c.isDigit = true) := by
  obtain ⟨d, ds, hdigits, hd⟩ := exists_digits_eq_cons n.natAbs
  unfold Text.decimal
  split
  · exact ⟨'-', _, rfl, .inl rfl⟩
  · exact ⟨d, ds, hdigits, .inr hd⟩

theorem exists_write_eq_cons {json : Json} (h : json.IsPlain) :
    ∃ c cs, json.write = c :: cs ∧ Opens c := by
  match json, h with
  | null, _ => exact ⟨_, _, rfl, by decide, by decide⟩
  | bool true, _ => exact ⟨_, _, rfl, by decide, by decide⟩
  | bool false, _ => exact ⟨_, _, rfl, by decide, by decide⟩
  | string (some s), _ => exact ⟨_, _, rfl, by decide, by decide⟩
  | number (some (.integer n)), _ =>
      obtain ⟨c, cs, hwrite, hc⟩ := exists_decimal_eq_cons n
      refine ⟨c, cs, hwrite, ?_⟩
      rcases hc with rfl | hdigit
      · exact ⟨by decide, by decide⟩
      · exact opens_of_isDigit hdigit
  | array items, _ => exact ⟨_, _, rfl, by decide, by decide⟩
  | object members, _ => exact ⟨_, _, rfl, by decide, by decide⟩

/-! ## Scalars -/

theorem readScalar_of_number {c : Char} {cs : List Char} (h : c = '-' ∨ c.isDigit = true) :
    readScalar (c :: cs) =
      (readNumber? (c :: cs)).elim (.broken, []) fun (n, rest) => (.number n, rest) := by
  have hmarks : c ≠ 'n' ∧ c ≠ 't' ∧ c ≠ 'f' ∧ c ≠ '"' := by
    refine ⟨?_, ?_, ?_, ?_⟩ <;> rintro rfl <;> exact absurd h (by decide)
  rw [readScalar.eq_def]
  split
  · next heq => exact absurd (List.cons.inj heq).1 hmarks.1
  · next heq => exact absurd (List.cons.inj heq).1 hmarks.2.1
  · next heq => exact absurd (List.cons.inj heq).1 hmarks.2.2.1
  · next heq => exact absurd (List.cons.inj heq).1 hmarks.2.2.2
  · rfl

theorem readScalar_decimal {n : Int} (h : Fits n) {rest : List Char} (hrest : Delimited rest) :
    readScalar (Text.decimal n ++ rest) = (ofInt n, rest) := by
  have hnumber := readNumber?_decimal h hrest
  obtain ⟨c, cs, hdecimal, hc⟩ := exists_decimal_eq_cons n
  rw [hdecimal, List.cons_append] at hnumber ⊢
  rw [readScalar_of_number hc, hnumber]
  rfl

theorem readValue_of_scalar {c : Char} (hspace : isSpace c = false) (hbracket : c ≠ '[')
    (hbrace : c ≠ '\x7b') (fuel : Nat) (cs : List Char) :
    readValue (fuel + 1) (c :: cs) = readScalar (c :: cs) := by
  have hskip : skipSpace (c :: cs) = c :: cs := by simp [skipSpace, hspace]
  rw [readValue, hskip]
  split
  · next heq => exact absurd (List.cons.inj heq).1 hbracket
  · next heq => exact absurd (List.cons.inj heq).1 hbrace
  · rfl

theorem readValue_decimal {n : Int} (h : Fits n) {rest : List Char} (hrest : Delimited rest)
    (fuel : Nat) : readValue (fuel + 1) (Text.decimal n ++ rest) = (ofInt n, rest) := by
  have hscalar := readScalar_decimal h hrest
  obtain ⟨c, cs, hdecimal, hc⟩ := exists_decimal_eq_cons n
  rw [hdecimal, List.cons_append] at hscalar ⊢
  have hspace : isSpace c = false := by
    rcases hc with rfl | hdigit
    · decide
    · exact (opens_of_isDigit hdigit).1
  have hmarks : c ≠ '[' ∧ c ≠ '\x7b' := by
    refine ⟨?_, ?_⟩ <;> rintro rfl <;> exact absurd hc (by decide)
  rw [readValue_of_scalar hspace hmarks.1 hmarks.2, hscalar]

theorem readValue_quote (s : String) (rest : List Char) (fuel : Nat) :
    readValue (fuel + 1) (quote s ++ rest) = (ofText s, rest) := by
  unfold quote
  simp only [List.cons_append, List.append_assoc, List.nil_append]
  rw [readValue_of_scalar (by decide) (by decide) (by decide)]
  simp [readScalar, readString?_escaped, ofText]

/-! ## Values in values

Every bracket, comma and colon of a text pays for the steps that the reader takes around it. -/

theorem length_write_pos {json : Json} (h : json.IsPlain) : 0 < json.write.length := by
  obtain ⟨c, cs, hwrite, -⟩ := exists_write_eq_cons h
  simp [hwrite]

theorem readItems_last {json : Json} {fuel : Nat} {rest : List Char}
    (hread : readValue fuel (json.write ++ ']' :: rest) = (json, ']' :: rest)) :
    readItems (fuel + 1) (json.write ++ ']' :: rest) = ([json], rest) := by
  simp [readItems, hread, skipSpace, isSpace]

theorem readItems_more {json : Json} {fuel : Nat} {cs : List Char}
    (hread : readValue fuel (json.write ++ ',' :: cs) = (json, ',' :: cs)) :
    readItems (fuel + 1) (json.write ++ ',' :: cs) = (readItems fuel cs).map (json :: ·) id := by
  simp [readItems, hread, skipSpace, isSpace]

theorem readMembers_last (name : String) {json : Json} {fuel : Nat} {rest : List Char}
    (hread : readValue fuel (json.write ++ '\x7d' :: rest) = (json, '\x7d' :: rest)) :
    readMembers (fuel + 1) (quote name ++ ':' :: (json.write ++ '\x7d' :: rest)) =
      ([(some name, json)], rest) := by
  simp [readMembers, quote, readString?_escaped, hread, skipSpace, isSpace]

theorem readMembers_more (name : String) {json : Json} {fuel : Nat} {cs : List Char}
    (hread : readValue fuel (json.write ++ ',' :: cs) = (json, ',' :: cs)) :
    readMembers (fuel + 1) (quote name ++ ':' :: (json.write ++ ',' :: cs)) =
      (readMembers fuel cs).map ((some name, json) :: ·) id := by
  simp [readMembers, quote, readString?_escaped, hread, skipSpace, isSpace]

theorem readValue_bracket {c : Char} (hc : Opens c) (fuel : Nat) (cs : List Char) :
    readValue (fuel + 1) ('[' :: c :: cs) = (readItems fuel (c :: cs)).map .array id := by
  have hskip : skipSpace (c :: cs) = c :: cs := by simp [skipSpace, hc.1]
  have hopen : skipSpace ('[' :: c :: cs) = '[' :: c :: cs := by simp [skipSpace, isSpace]
  simp only [readValue, hopen, hskip]
  split
  · next heq => exact absurd (List.cons.inj heq).1 hc.2
  · rfl

theorem readValue_brace (fuel : Nat) (cs : List Char) :
    readValue (fuel + 1) ('\x7b' :: '"' :: cs) = (readMembers fuel ('"' :: cs)).map .object id := by
  simp [readValue, skipSpace, isSpace]

theorem exists_separated_eq_cons (mark c : Char) (cs : List Char) (texts : List (List Char)) :
    ∃ cs', separated mark ((c :: cs) :: texts) = c :: cs' := by
  cases texts with
  | nil => exact ⟨cs, rfl⟩
  | cons text texts => exact ⟨_, rfl⟩

mutual

/-- A value is read back with whatever follows it left over. -/
theorem readValue_write (json : Json) (hplain : json.IsPlain) (fuel : Nat)
    (hfuel : 2 * json.write.length ≤ fuel) (rest : List Char) (hrest : Delimited rest) :
    readValue fuel (json.write ++ rest) = (json, rest) := by
  have hpos := length_write_pos hplain
  obtain ⟨fuel, rfl⟩ : ∃ k, fuel = k + 1 := ⟨fuel - 1, by omega⟩
  match json, hplain with
  | null, _ => rfl
  | bool true, _ => rfl
  | bool false, _ => rfl
  | string (some s), _ => exact readValue_quote s rest fuel
  | number (some (.integer n)), hfits => exact readValue_decimal hfits hrest fuel
  | array [], _ => rfl
  | object [], _ => rfl
  | array (item :: items), hitems =>
      simp only [write, List.length_cons, List.length_append] at hfuel
      have hread := readItems_write item items hitems fuel (by omega) rest
      obtain ⟨c, cs, hitem, hc⟩ := exists_write_eq_cons hitems.1
      obtain ⟨cs', htext⟩ := exists_separated_eq_cons ',' c cs (writeItems items)
      have hopen : separated ',' (writeItems (item :: items)) = c :: cs' := by
        rw [writeItems, hitem, htext]
      simp only [write, List.cons_append, List.append_assoc, List.nil_append]
      rw [hopen, List.cons_append] at hread ⊢
      rw [readValue_bracket hc, hread]
      rfl
  | object ((some name, value) :: members), hmembers =>
      simp only [write, List.length_cons, List.length_append] at hfuel
      have hread := readMembers_write name value members hmembers fuel (by omega) rest
      obtain ⟨cs', htext⟩ := exists_separated_eq_cons ',' '"'
        (name.toList.flatMap escape ++ ['"'] ++ ':' :: value.write) (writeMembers members)
      have hopen : separated ',' (writeMembers ((some name, value) :: members)) = '"' :: cs' := by
        rw [writeMembers, ← htext]
        rfl
      simp only [write, List.cons_append, List.append_assoc, List.nil_append]
      rw [hopen, List.cons_append] at hread ⊢
      rw [readValue_brace, hread]
      rfl
termination_by fuel

theorem readItems_write (item : Json) (items : List Json) (hplain : AllPlain (item :: items))
    (fuel : Nat) (hfuel : 2 * (separated ',' (writeItems (item :: items))).length < fuel)
    (rest : List Char) :
    readItems fuel (separated ',' (writeItems (item :: items)) ++ ']' :: rest) =
      (item :: items, rest) := by
  obtain ⟨fuel, rfl⟩ : ∃ k, fuel = k + 1 := ⟨fuel - 1, by omega⟩
  obtain ⟨hitem, hitems⟩ := hplain
  match items with
  | [] =>
      simp only [writeItems, separated] at hfuel ⊢
      exact readItems_last
        (readValue_write item hitem fuel (by omega) (']' :: rest) (.inr (.inl rfl)))
  | next :: items =>
      simp only [writeItems, separated, List.length_append, List.length_cons] at hfuel
      have hread := readValue_write item hitem fuel (by omega)
        (',' :: (separated ',' (writeItems (next :: items)) ++ ']' :: rest)) (.inl rfl)
      have hmore := readItems_write next items hitems fuel (by simp only [writeItems]; omega) rest
      have hstep := readItems_more hread
      rw [hmore] at hstep
      simpa [writeItems, separated] using hstep
termination_by fuel

theorem readMembers_write (name : String) (value : Json)
    (members : List (Option String × Json))
    (hplain : AllMembersPlain ((some name, value) :: members)) (fuel : Nat)
    (hfuel : 2 * (separated ',' (writeMembers ((some name, value) :: members))).length < fuel)
    (rest : List Char) :
    readMembers fuel
        (separated ',' (writeMembers ((some name, value) :: members)) ++ '\x7d' :: rest) =
      ((some name, value) :: members, rest) := by
  obtain ⟨fuel, rfl⟩ : ∃ k, fuel = k + 1 := ⟨fuel - 1, by omega⟩
  obtain ⟨-, hvalue, hmembers⟩ := hplain
  match members, hmembers with
  | [], _ =>
      simp only [writeMembers, separated, List.length_append, List.length_cons] at hfuel
      have hread := readValue_write value hvalue fuel (by omega) ('\x7d' :: rest) (.inr (.inr rfl))
      simpa [writeMembers, separated] using readMembers_last name hread
  | (some next, other) :: members, hmembers =>
      simp only [writeMembers, separated, List.length_append, List.length_cons] at hfuel
      have hread := readValue_write value hvalue fuel (by omega)
        (',' :: (separated ',' (writeMembers ((some next, other) :: members)) ++ '\x7d' :: rest))
        (.inl rfl)
      have hmore := readMembers_write next other members hmembers fuel
        (by simp only [writeMembers]; omega) rest
      have hstep := readMembers_more name hread
      rw [hmore] at hstep
      simpa [writeMembers, separated] using hstep
termination_by fuel

end

/-- The text of a plain value is read as that value, to its end. -/
theorem read_render {json : Json} (hplain : json.IsPlain) : read json.render = ⟨json, true⟩ := by
  have hread := readValue_write json hplain (2 * json.write.length + 2) (by omega) [] trivial
  rw [List.append_nil] at hread
  simp [read, render, hread]

end TopicBroker.Json
