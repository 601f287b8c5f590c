import Mathlib.Algebra.GroupWithZero.Nat
import TopicBroker.Table
import TopicBroker.Text.Digits

/-! # Laws of decimal digits

Digits are read back, and numbers of a fixed width are in the same order as their texts. -/

namespace TopicBroker.Text

/-! ## Reading digits back -/

@[simp] theorem value_nil : value [] = 0 := rfl

theorem value_cons (c : Char) (cs : List Char) :
    value (c :: cs) = 10 ^ cs.length * (c.toNat - '0'.toNat) + value cs := by
  change Nat.ofDigitChars 10 (c :: cs) 0 = _
  rw [Nat.ofDigitChars_cons, Nat.ofDigitChars_eq_ofDigitChars_zero, Nat.mul_zero, Nat.zero_add]
  rfl

@[simp] theorem value_digits (n : Nat) : value (digits n) = n :=
  Nat.ofDigitChars_ten_toDigits

@[simp] theorem value_padded (width n : Nat) : value (padded width n) = n := by
  change Nat.ofDigitChars 10 (_ ++ digits n) 0 = n
  rw [Nat.ofDigitChars_append, Nat.ofDigitChars_replicate_zero, Nat.mul_zero]
  exact value_digits n

theorem isDigit_of_mem_digits {n : Nat} {c : Char} (h : c ∈ digits n) : c.isDigit = true :=
  Nat.isDigit_of_mem_toDigits (by decide) (by decide) h

theorem isDigit_of_mem_padded {width n : Nat} {c : Char} (h : c ∈ padded width n) :
    c.isDigit = true := by
  rcases List.mem_append.mp h with h | h
  · rw [List.eq_of_mem_replicate h]
    decide
  · exact isDigit_of_mem_digits h

theorem length_padded {width n : Nat} (hwidth : 0 < width) (h : n < 10 ^ width) :
    (padded width n).length = width := by
  have hlength : (digits n).length ≤ width :=
    (Nat.length_toDigits_le_iff (by decide) hwidth).mpr h
  simp only [padded, List.length_append, List.length_replicate]
  omega

/-- Only zero starts with a zero. -/
theorem head_digits_ne_zero {n : Nat} (h : 0 < n) (cs : List Char) : digits n ≠ '0' :: cs := by
  induction n using Nat.strongRecOn generalizing cs with
  | ind n ih =>
      unfold digits
      rw [Nat.toDigits_eq_if (by decide)]
      split
      · next hlt =>
          intro hcons
          have hzero : n.digitChar = '0' := (List.cons.inj hcons).1
          exact absurd (Nat.digitChar_eq_zero.mp hzero) (Nat.ne_of_gt h)
      · next hge =>
          have hpos : 0 < n / 10 := Nat.div_pos (Nat.le_of_not_lt hge) (by decide)
          have hrest := ih (n / 10) (Nat.div_lt_self h (by decide)) hpos
          unfold digits at hrest
          cases hfront : Nat.toDigits 10 (n / 10) with
          | nil => exact absurd hfront Nat.toDigits_ne_nil
          | cons c front =>
              rw [hfront] at hrest
              intro hcons
              exact hrest front (by rw [(List.cons.inj hcons).1])

/-! ## The order of numbers as texts -/

theorem toNat_of_isDigit {c : Char} (h : c.isDigit = true) : 48 ≤ c.toNat ∧ c.toNat ≤ 57 := by
  simpa using Char.isDigit_iff_toNat.mp h

theorem value_lt {cs : List Char} (h : ∀ c ∈ cs, c.isDigit = true) :
    value cs < 10 ^ cs.length := by
  induction cs with
  | nil => simp
  | cons c cs ih =>
      have hc := toNat_of_isDigit (h c (by simp))
      have hcs := ih fun d hd => h d (by simp [hd])
      have hdigit : 10 ^ cs.length * (c.toNat - 48) ≤ 10 ^ cs.length * 9 :=
        Nat.mul_le_mul_left _ (by omega)
      rw [value_cons, List.length_cons, Nat.pow_succ]
      change 10 ^ cs.length * (c.toNat - 48) + _ < _
      omega

/-- The byte of a character of ASCII. -/
def asciiByte (c : Char) : UInt8 := UInt8.ofNat c.toNat

theorem encode_ofList {cs : List Char} (h : ∀ c ∈ cs, c.isDigit = true) :
    Utf8.encode (String.ofList cs) = cs.map asciiByte := by
  have hbytes : cs.flatMap String.utf8EncodeChar = cs.map asciiByte := by
    induction cs with
    | nil => rfl
    | cons c cs ih =>
        have hc := toNat_of_isDigit (h c (by simp))
        have hsize : c.utf8Size = 1 := by
          rw [Char.utf8Size_eq_one_iff, UInt32.le_iff_toNat_le]
          exact Nat.le_trans hc.2 (by decide)
        rw [List.flatMap_cons, String.utf8EncodeChar_eq_singleton hsize,
          ih fun d hd => h d (by simp [hd])]
        rfl
  simp [Utf8.encode, List.utf8Encode, hbytes]

/-- Of two texts of digits of the same length, the one of the smaller number comes first. -/
theorem map_asciiByte_lt {cs ds : List Char} (hcs : ∀ c ∈ cs, c.isDigit = true)
    (hds : ∀ d ∈ ds, d.isDigit = true) (hlength : cs.length = ds.length)
    (hvalue : value cs < value ds) : cs.map asciiByte < ds.map asciiByte := by
  induction cs generalizing ds with
  | nil =>
      cases ds with
      | nil => simp at hvalue
      | cons d ds => simp at hlength
  | cons c cs ih =>
      cases ds with
      | nil => simp at hlength
      | cons d ds =>
          have hc := toNat_of_isDigit (hcs c (by simp))
          have hd := toNat_of_isDigit (hds d (by simp))
          have hcs' : ∀ e ∈ cs, e.isDigit = true := fun e he => hcs e (by simp [he])
          have hds' : ∀ e ∈ ds, e.isDigit = true := fun e he => hds e (by simp [he])
          have hlength' : cs.length = ds.length := Nat.succ.inj hlength
          rw [value_cons, value_cons, hlength'] at hvalue
          rw [List.map_cons, List.map_cons, List.cons_lt_cons_iff]
          rcases Nat.lt_trichotomy c.toNat d.toNat with hlt | heq | hgt
          · left
            rw [UInt8.lt_iff_toNat_lt]
            simp only [asciiByte, UInt8.toNat_ofNat']
            omega
          · right
            refine ⟨by simp [asciiByte, heq], ih hcs' hds' hlength' ?_⟩
            rw [heq] at hvalue
            exact Nat.lt_of_add_lt_add_left hvalue
          · -- a larger first digit outweighs all that follows
            exfalso
            have hrest := value_lt hds'
            have hfirst : 10 ^ ds.length * (d.toNat - '0'.toNat + 1) ≤
                10 ^ ds.length * (c.toNat - '0'.toNat) :=
              Nat.mul_le_mul_left _ (by change d.toNat - 48 + 1 ≤ c.toNat - 48; omega)
            rw [Nat.mul_add] at hfirst
            omega

theorem precedes_padded {width i j : Nat} (hwidth : 0 < width) (hij : i < j)
    (hj : j < 10 ^ width) :
    Precedes (String.ofList (padded width i)) (String.ofList (padded width j)) := by
  unfold Precedes
  rw [encode_ofList fun _ => isDigit_of_mem_padded, encode_ofList fun _ => isDigit_of_mem_padded]
  apply map_asciiByte_lt (fun _ => isDigit_of_mem_padded) (fun _ => isDigit_of_mem_padded)
  · rw [length_padded hwidth (Nat.lt_trans hij hj), length_padded hwidth hj]
  · simpa using hij

end TopicBroker.Text
