import TopicBroker.Proofs.Json.ReadBack

/-! # JSON texts are one line

Control characters are escaped inside texts and stand nowhere else, so that the text of a value has
no line break in it, whatever the texts in the value. -/

namespace TopicBroker.Json

/-- There are no control characters, and so no line breaks, among these. -/
def Inline (cs : List Char) : Prop := ∀ c ∈ cs, 0x20 ≤ c.toNat

instance : DecidablePred Inline :=
  fun cs => List.decidableBAll _ cs

@[simp] theorem inline_nil : Inline [] := by simp [Inline]

@[simp] theorem inline_cons {c : Char} {cs : List Char} :
    Inline (c :: cs) ↔ 0x20 ≤ c.toNat ∧ Inline cs := by
  simp [Inline]

@[simp] theorem inline_append {cs ds : List Char} :
    Inline (cs ++ ds) ↔ Inline cs ∧ Inline ds :=
  List.forall_mem_append

/-! ## Scalars -/

theorem inline_escape (c : Char) : Inline (escape c) := by
  unfold escape
  split
  case h_8 =>
      split
      · next hcontrol =>
          have hhex : ∀ n < 16, 0x20 ≤ (hexDigit n).toNat := by decide
          have hhigh := hhex (c.toNat / 16) (by omega)
          have hlow := hhex (c.toNat % 16) (by omega)
          simp [hhigh, hlow]
      · next hcontrol => simpa using hcontrol
  all_goals decide

theorem inline_quote (s : String) : Inline (quote s) := by
  have hescaped : Inline (s.toList.flatMap escape) := by
    intro c hc
    obtain ⟨d, -, hd⟩ := List.mem_flatMap.mp hc
    exact inline_escape d c hd
  simp [quote, hescaped]

theorem inline_decimal (n : Int) : Inline (Text.decimal n) := by
  have hdigits : Inline (Text.digits n.natAbs) := by
    intro c hc
    have hdigit := Text.toNat_of_isDigit (Text.isDigit_of_mem_digits hc)
    omega
  unfold Text.decimal
  split
  · simp [hdigits]
  · exact hdigits

/-! ## Values -/

theorem inline_separated (mark : Char) (hmark : 0x20 ≤ mark.toNat) {texts : List (List Char)}
    (h : ∀ cs ∈ texts, Inline cs) : Inline (separated mark texts) := by
  induction texts with
  | nil => exact inline_nil
  | cons cs texts ih =>
      obtain ⟨hcs, htexts⟩ := List.forall_mem_cons.mp h
      cases texts with
      | nil => exact hcs
      | cons ds texts => simp [separated, hcs, hmark, ih htexts]

mutual

/-- The text of a plain value is one line. -/
theorem inline_write (json : Json) (hplain : json.IsPlain) : Inline json.write := by
  match json, hplain with
  | null, _ => decide
  | bool true, _ => decide
  | bool false, _ => decide
  | string (some s), _ => exact inline_quote s
  | number (some (.integer n)), _ => exact inline_decimal n
  | array items, hitems =>
      have h := inline_separated ',' (by decide) (inline_writeItems items hitems)
      simp [write, h]
  | object members, hmembers =>
      have h := inline_separated ',' (by decide) (inline_writeMembers members hmembers)
      simp [write, h]

theorem inline_writeItems (items : List Json) (hplain : AllPlain items) :
    ∀ cs ∈ writeItems items, Inline cs := by
  match items, hplain with
  | [], _ => simp [writeItems]
  | item :: items, hitems =>
      exact List.forall_mem_cons.mpr
        ⟨inline_write item hitems.1, inline_writeItems items hitems.2⟩

theorem inline_writeMembers (members : List (Option String × Json))
    (hplain : AllMembersPlain members) : ∀ cs ∈ writeMembers members, Inline cs := by
  match members, hplain with
  | [], _ => simp [writeMembers]
  | (name, value) :: members, hmembers =>
      refine List.forall_mem_cons.mpr ⟨?_, inline_writeMembers members hmembers.2.2⟩
      simp [inline_quote, inline_write value hmembers.2.1]

end

end TopicBroker.Json
