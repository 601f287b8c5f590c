import TopicBroker.Binary64.Basic
import TopicBroker.Proofs.Text.Digits

/-! # Whole numbers of 64 bits

A whole number of 64 binary digits has eleven more than a binary64 number can hold. It goes to the
nearest multiple of 2048, and a half to the even one. -/

namespace TopicBroker.Binary64

variable {n : Nat}

/-- The multiple of 2048 that a number goes to. -/
def nearest (n : Nat) : Nat :=
  2048 * roundHalfEven n 2048

theorem roundHalfEven_le {bound : Nat} (h : n ≤ 2048 * bound) : roundHalfEven n 2048 ≤ bound := by
  simp only [roundHalfEven]
  split
  · omega
  · split <;> omega

theorem nearest_eq_self_iff : nearest n = n ↔ 2048 ∣ n := by
  constructor
  · intro h
    exact ⟨_, h.symm⟩
  · rintro ⟨m, rfl⟩
    simp [nearest, roundHalfEven]

theorem exponentOf_whole (hlow : 2 ^ 63 ≤ n) (hhigh : n < 2 ^ 64) : exponentOf n 1 = 11 := by
  have hlog : n.log2 = 63 := by
    rw [Nat.log2_eq_iff (by omega)]
    exact ⟨hlow, hhigh⟩
  have hone : Nat.log2 1 = 0 := by decide
  have hestimate : (((63 : Nat) : Int) - ((0 : Nat) : Int) - 52) = 11 := by decide
  have hup : (-(11 : Int)).toNat = 0 := by decide
  have hmax : max (11 : Int) leastExponent = 11 := by decide
  have hshift : ¬ n <<< 0 < 1 <<< (52 + (11 : Int).toNat) := Nat.not_lt.mpr hlow
  simp only [exponentOf, hlog, hone, hestimate, hup, hshift, if_false, hmax]

theorem ofScientific_whole (hlow : 2 ^ 63 ≤ n) (hhigh : n < 2 ^ 64) :
    ofScientific false n 0 = ofQuotient false n 1 := by
  have hpositive : n ≠ 0 := by omega
  have hlength : (Text.digits n).length ≤ 20 :=
    (Nat.length_toDigits_le_iff (by decide) (by decide)).mpr (by omega)
  have hplaces : ¬ (310 : Int) < 0 + (Text.digits n).length := by omega
  have hmany : ¬ (0 : Int) + (Text.digits n).length < -330 := by omega
  simp only [ofScientific, hpositive, hmany, or_self, hplaces, if_false]
  simp [ofDecimal, tenTo]

/-- A number of 64 digits goes to a number whose value is the nearest multiple of 2048. -/
theorem round?_ofScientific (hlow : 2 ^ 63 ≤ n) (hhigh : n < 2 ^ 64) :
    (ofScientific false n 0).round? = some (nearest n : Int) := by
  have hpositive : n ≠ 0 := by omega
  have hsmall : roundHalfEven n 2048 ≤ 2 ^ 53 := roundHalfEven_le (by omega)
  rw [ofScientific_whole hlow hhigh]
  have hsignificand : roundHalfEven (n <<< (-11 : Int).toNat) (1 <<< (11 : Int).toNat) =
      roundHalfEven n 2048 := by
    simp [Nat.shiftLeft_eq]
  have hnotLarge : ¬ greatestExponent ≤ (11 : Int) := by decide
  have hnotLarger : ¬ greatestExponent < (11 : Int) := by decide
  simp only [ofQuotient, hpositive, if_false, exponentOf_whole hlow hhigh, hsignificand,
    hnotLarge, hnotLarger, nearest]
  split
  · next hlarge =>
      have htop : roundHalfEven n 2048 = 2 ^ 53 := Nat.le_antisymm hsmall hlarge
      rw [htop]
      decide
  · have hup : (11 : Int).toNat = 11 := rfl
    have hdown : (-11 : Int).toNat = 0 := rfl
    simp only [round?, Bool.false_eq_true, if_false, Option.some.injEq, Nat.shiftLeft_eq, hup,
      hdown]
    omega

end TopicBroker.Binary64
