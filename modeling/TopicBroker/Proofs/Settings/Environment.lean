import Mathlib.Data.List.TakeDrop
import Mathlib.Data.List.TakeWhile
import TopicBroker.Proofs.Text.Digits
import TopicBroker.Record.Setting
import TopicBroker.Settings.Environment

/-! # What variables are read as

A value that looks like a boolean or a number is read as one, whatever it is for; only another value
is read as a text or as a list of texts. -/

namespace TopicBroker.Environment

/-! ## Readings -/

/-- A value in small letters. -/
def lowered (value : String) : String :=
  String.ofList (value.toList.map small)

/-- The value does not look like anything but a text. -/
structure IsText (value : String) : Prop where
  notTrue : lowered value ≠ "true"
  notFalse : lowered value ≠ "false"
  notInteger : integer? value.toList = none
  notFloat : float? value.toList = none

/-- What a value is read as that looks like something else than a text. -/
inductive ReadAs (value : String) : Setting → Prop where
  | yes (word : lowered value = "true") : ReadAs value (.boolean true)
  | no (word : lowered value = "false") : ReadAs value (.boolean false)
  | integer {n : Int} (notTrue : lowered value ≠ "true") (notFalse : lowered value ≠ "false")
      (digits : integer? value.toList = some n) : ReadAs value (.integer n)
  | float {x : Binary64} (notTrue : lowered value ≠ "true") (notFalse : lowered value ≠ "false")
      (notInteger : integer? value.toList = none) (digits : float? value.toList = some x) :
      ReadAs value (.float x)

variable {key value : String}

theorem settingOf_eq (key value : String) :
    settingOf key value =
      if lowered value = "true" then .boolean true
      else if lowered value = "false" then .boolean false
      else match integer? value.toList, float? value.toList with
        | some n, _ => .integer n
        | none, some x => .float x
        | none, none =>
          if key = listKey then
            .list ((splitCommas value.toList).map fun part => .text (String.ofList part))
          else .text value := by
  simp only [settingOf, lowered]
  split <;> simp_all

theorem settingOf_of_readAs {setting : Setting} (h : ReadAs value setting) (key : String) :
    settingOf key value = setting := by
  rw [settingOf_eq]
  cases h with
  | yes word => simp [word]
  | no word => simp [word]
  | integer notTrue notFalse digits => simp [notTrue, notFalse, digits]
  | float notTrue notFalse notInteger digits => simp [notTrue, notFalse, notInteger, digits]

theorem settingOf_of_isText (h : IsText value) (hkey : key ≠ listKey) :
    settingOf key value = .text value := by
  simp [settingOf_eq, h.notTrue, h.notFalse, h.notInteger, h.notFloat, hkey]

theorem settingOf_listKey_of_isText (h : IsText value) :
    settingOf listKey value =
      .list ((splitCommas value.toList).map fun part => .text (String.ofList part)) := by
  simp [settingOf_eq, h.notTrue, h.notFalse, h.notInteger, h.notFloat]

theorem isText_or_readAs (value : String) : IsText value ∨ ∃ setting, ReadAs value setting := by
  by_cases htrue : lowered value = "true"
  · exact .inr ⟨_, .yes htrue⟩
  by_cases hfalse : lowered value = "false"
  · exact .inr ⟨_, .no hfalse⟩
  cases hinteger : integer? value.toList with
  | some n => exact .inr ⟨_, .integer htrue hfalse hinteger⟩
  | none =>
      cases hfloat : float? value.toList with
      | some x => exact .inr ⟨_, .float htrue hfalse hinteger hfloat⟩
      | none => exact .inl ⟨htrue, hfalse, hinteger, hfloat⟩

/-! ## Numbers in decimal -/

theorem small_of_isDigit {c : Char} (h : c.isDigit = true) : small c = c := by
  have hdigit := Text.toNat_of_isDigit h
  have hne : c ≠ '\u212a' := by
    rintro rfl
    exact absurd h (by decide)
  have hnotCapital : ¬ (c.val ≥ 'A'.val ∧ c.val ≤ 'Z'.val) := by
    rintro ⟨hcapital, -⟩
    have hsixtyFive : 65 ≤ c.toNat := UInt32.le_iff_toNat_le.mp hcapital
    omega
  rw [small, if_neg hne]
  exact dif_neg hnotCapital

theorem map_small_of_isDigit {cs : List Char} (h : ∀ c ∈ cs, c.isDigit = true) :
    cs.map small = cs := by
  conv => rhs; rw [← List.map_id cs]
  exact List.map_congr_left fun c hc => small_of_isDigit (h c hc)

theorem takeSign_of_isDigit {cs : List Char} (h : ∀ c ∈ cs, c.isDigit = true) :
    takeSign cs = (false, cs) := by
  unfold takeSign
  split
  · exact absurd (h '-' List.mem_cons_self) (by decide)
  · exact absurd (h '+' List.mem_cons_self) (by decide)
  · rfl

theorem isEmpty_digits (n : Nat) : (Text.digits n).isEmpty = false :=
  List.isEmpty_eq_false_iff.mpr Nat.toDigits_ne_nil

theorem all_isDigit_digits (n : Nat) : (Text.digits n).all Char.isDigit = true :=
  List.all_eq_true.mpr fun _ => Text.isDigit_of_mem_digits

/-- The letters of a value that is a word in other letters. -/
theorem exists_of_lowered {value word : String} (h : lowered value = word) {letter : Char}
    (hletter : letter ∈ word.toList) : ∃ c ∈ value.toList, small c = letter := by
  rw [← h, lowered, String.toList_ofList] at hletter
  exact List.mem_map.mp hletter

/-- A number in decimal is no word. -/
theorem lowered_decimal_ne (n : Int) {word : String} (hword : 'e' ∈ word.toList) :
    lowered (String.ofList (Text.decimal n)) ≠ word := by
  intro h
  obtain ⟨c, hc, hsmall⟩ := exists_of_lowered h hword
  have hcases : c = '-' ∨ c.isDigit = true := by
    rw [String.toList_ofList, Text.decimal] at hc
    split at hc
    · rcases List.mem_cons.mp hc with rfl | hc
      · exact .inl rfl
      · exact .inr (Text.isDigit_of_mem_digits hc)
    · exact .inr (Text.isDigit_of_mem_digits hc)
  rcases hcases with rfl | hdigit
  · exact absurd hsmall (by decide)
  · rw [small_of_isDigit hdigit] at hsmall
    exact absurd (hsmall ▸ hdigit) (by decide)

theorem inRange_of_integer? {cs : List Char} {n : Int} (h : integer? cs = some n) :
    -9223372036854775808 ≤ n ∧ n ≤ 9223372036854775807 := by
  simp only [integer?, Option.ite_none_left_eq_some, Option.ite_none_right_eq_some] at h
  obtain ⟨-, hrange, hn⟩ := h
  rw [Option.some.inj hn] at hrange
  exact hrange

theorem integer?_decimal {n : Int} (hlow : -9223372036854775808 ≤ n)
    (hhigh : n ≤ 9223372036854775807) : integer? (Text.decimal n) = some n := by
  by_cases hnegative : n < 0
  · rw [Text.decimal, if_pos hnegative]
    have hvalue : -((n.natAbs : Nat) : Int) = n := by omega
    generalize n.natAbs = m at hvalue ⊢
    subst hvalue
    simp only [integer?, takeSign, isEmpty_digits, all_isDigit_digits, Text.value_digits]
    simp [hlow, hhigh]
  · rw [Text.decimal, if_neg hnegative]
    have hvalue : ((n.natAbs : Nat) : Int) = n := by omega
    generalize n.natAbs = m at hvalue ⊢
    subst hvalue
    have hsign : takeSign (Text.digits m) = (false, Text.digits m) :=
      takeSign_of_isDigit fun _ => Text.isDigit_of_mem_digits
    simp only [integer?, hsign, isEmpty_digits, all_isDigit_digits, Text.value_digits]
    simp [hlow, hhigh]

theorem integer?_digits_of_large {n : Nat} (h : 9223372036854775807 < n) :
    integer? (Text.digits n) = none := by
  have hsign : takeSign (Text.digits n) = (false, Text.digits n) :=
    takeSign_of_isDigit fun _ => Text.isDigit_of_mem_digits
  have hrange : ¬ ((n : Int) ≤ 9223372036854775807) := by omega
  simp [integer?, hsign, isEmpty_digits, all_isDigit_digits, hrange]

theorem ofList_digits_ne (n : Nat) {word : String} {letter : Char} (hletter : letter ∈ word.toList)
    (hnotDigit : letter.isDigit = false) : String.ofList (Text.digits n) ≠ word := by
  rintro rfl
  rw [String.toList_ofList] at hletter
  rw [Text.isDigit_of_mem_digits hletter] at hnotDigit
  cases hnotDigit

theorem float?_digits (n : Nat) :
    float? (Text.digits n) = some (Binary64.ofScientific false n 0) := by
  have hdigits : ∀ c ∈ Text.digits n, c.isDigit = true := fun _ => Text.isDigit_of_mem_digits
  have hspan : (Text.digits n).span Char.isDigit = (Text.digits n, []) := by
    rw [List.span_eq_takeWhile_dropWhile, List.takeWhile_eq_self_iff.mpr hdigits,
      List.dropWhile_eq_nil_iff.mpr hdigits]
  simp only [float?, takeSign_of_isDigit hdigits, map_small_of_isDigit hdigits, hspan]
  split
  · next h => exact absurd h (ofList_digits_ne n (by decide : 'n' ∈ "inf".toList) (by decide))
  · next h => exact absurd h (ofList_digits_ne n (by decide : 'n' ∈ "infinity".toList) (by decide))
  · next h => exact absurd h (ofList_digits_ne n (by decide : 'n' ∈ "nan".toList) (by decide))
  · simp [exponent?, isEmpty_digits]

/-! ## Lists -/

theorem splitCommas_ne_nil (cs : List Char) : splitCommas cs ≠ [] := by
  cases cs with
  | nil => exact nofun
  | cons c cs =>
      rw [splitCommas]
      split
      · exact nofun
      · split <;> exact nofun

theorem splitCommas_of_not_mem {part : List Char} (h : ',' ∉ part) : splitCommas part = [part] := by
  induction part with
  | nil => rfl
  | cons c part ih =>
      obtain ⟨hc, hpart⟩ := List.ne_and_not_mem_of_not_mem_cons h
      simp [splitCommas, ih hpart, Ne.symm hc]

theorem splitCommas_append {part : List Char} (h : ',' ∉ part) (rest : List Char) :
    splitCommas (part ++ ',' :: rest) = part :: splitCommas rest := by
  induction part with
  | nil =>
      cases hrest : splitCommas rest with
      | nil => exact absurd hrest (splitCommas_ne_nil rest)
      | cons first parts => simp [splitCommas, hrest]
  | cons c part ih =>
      obtain ⟨hc, hpart⟩ := List.ne_and_not_mem_of_not_mem_cons h
      simp [splitCommas, ih hpart, Ne.symm hc]

/-- What is joined with commas is taken apart again. -/
theorem splitCommas_intercalate {parts : List (List Char)} (hne : parts ≠ [])
    (hparts : ∀ part ∈ parts, ',' ∉ part) : splitCommas ([','].intercalate parts) = parts := by
  induction parts with
  | nil => exact absurd rfl hne
  | cons part parts ih =>
      obtain ⟨hpart, hrest⟩ := List.forall_mem_cons.mp hparts
      cases parts with
      | nil => simpa using splitCommas_of_not_mem hpart
      | cons second parts =>
          rw [List.intercalate_cons_cons]
          simpa [splitCommas_append hpart] using ih (List.cons_ne_nil _ _) hrest

/-! ## Commas -/

theorem mem_takeSign {cs : List Char} (h : ',' ∈ cs) : ',' ∈ (takeSign cs).2 := by
  unfold takeSign
  split
  · simpa using h
  · simpa using h
  · exact h

theorem not_all_isDigit {cs : List Char} (h : ',' ∈ cs) : cs.all Char.isDigit = false := by
  rw [List.all_eq_false]
  exact ⟨',', h, by decide⟩

theorem integer?_of_comma {cs : List Char} (h : ',' ∈ cs) : integer? cs = none := by
  simp [integer?, not_all_isDigit (mem_takeSign h)]

theorem exponent?_of_comma {cs : List Char} (h : ',' ∈ cs) : exponent? cs = none := by
  cases cs with
  | nil => cases h
  | cons e cs =>
      simp only [exponent?]
      rw [if_neg]
      rintro ⟨he, -, hdigits⟩
      rcases List.mem_cons.mp h with rfl | hcs
      · exact absurd he (by decide)
      · rw [not_all_isDigit (mem_takeSign hcs)] at hdigits
        cases hdigits

/-- A comma is in what stands behind the digits in front of it. -/
theorem mem_dropWhile_of_comma {cs : List Char} (h : ',' ∈ cs) :
    ',' ∈ cs.dropWhile Char.isDigit := by
  rw [← List.takeWhile_append_dropWhile (p := Char.isDigit) (l := cs)] at h
  rcases List.mem_append.mp h with h | h
  · exact absurd (List.mem_takeWhile_imp h) (by decide)
  · exact h

theorem float?_of_comma {cs : List Char} (h : ',' ∈ cs) : float? cs = none := by
  have hsign := mem_takeSign h
  have hmap : ',' ∈ (String.ofList ((takeSign cs).2.map small)).toList := by
    rw [String.toList_ofList]
    exact List.mem_map_of_mem (f := small) hsign
  simp only [float?]
  split
  · next hword => exact absurd (hword ▸ hmap) (by decide)
  · next hword => exact absurd (hword ▸ hmap) (by decide)
  · next hword => exact absurd (hword ▸ hmap) (by decide)
  · rw [List.span_eq_takeWhile_dropWhile]
    have hrest := mem_dropWhile_of_comma hsign
    split
    · next rest hpoint =>
        have hplaces : ',' ∈ rest := by
          have hsame : (takeSign cs).2.dropWhile Char.isDigit = '.' :: rest := hpoint
          simpa [hsame] using hrest
        rw [List.span_eq_takeWhile_dropWhile,
          exponent?_of_comma (mem_dropWhile_of_comma hplaces)]
        rfl
    · rw [exponent?_of_comma hrest]
      rfl

theorem lowered_ne_of_comma {word : String} (h : ',' ∈ value.toList) (hword : ',' ∉ word.toList) :
    lowered value ≠ word := by
  rintro rfl
  rw [lowered, String.toList_ofList] at hword
  exact hword (List.mem_map_of_mem (f := small) h)

/-- What has a comma is a text. -/
theorem isText_of_comma (h : ',' ∈ value.toList) : IsText value where
  notTrue := lowered_ne_of_comma h (by decide)
  notFalse := lowered_ne_of_comma h (by decide)
  notInteger := integer?_of_comma h
  notFloat := float?_of_comma h

end TopicBroker.Environment
