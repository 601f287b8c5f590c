import TopicBroker.Proofs.Table
import TopicBroker.Proofs.Text.Digits
import TopicBroker.Store.Basic

/-! # Keys

The key of a client is its number in twenty places, whatever its sign, so different clients have
different keys, and no key is the start of another one. -/

namespace TopicBroker

/-! ## Numbers of a fixed width -/

namespace Text

/-- The number that a text stands for, with a minus sign in front of a negative one. -/
def intValue : List Char → Int
  | '-' :: ds => -(value ds : Int)
  | ds => value ds

theorem ne_minus_of_isDigit {c : Char} (h : c.isDigit = true) : c ≠ '-' := by
  rintro rfl
  exact absurd h (by decide)

theorem intValue_of_isDigit {cs : List Char} (h : ∀ c ∈ cs, c.isDigit = true) :
    intValue cs = value cs := by
  unfold intValue
  split
  · next ds => exact absurd rfl (ne_minus_of_isDigit (h '-' List.mem_cons_self))
  · rfl

/-- Numbers are read back whatever their width. -/
@[simp] theorem intValue_paddedInt (width : Nat) (n : Int) : intValue (paddedInt width n) = n := by
  unfold paddedInt
  split
  · rw [intValue, value_padded]
    omega
  · rw [intValue_of_isDigit fun _ => isDigit_of_mem_padded, value_padded]
    omega

theorem paddedInt_injective {width : Nat} {m n : Int} (h : paddedInt width m = paddedInt width n) :
    m = n := by
  simpa using congrArg intValue h

theorem length_paddedInt {width : Nat} {n : Int} (hwidth : 0 < width)
    (h : n.natAbs < 10 ^ width) : (paddedInt (width + 1) n).length = width + 1 := by
  unfold paddedInt
  split
  · rw [List.length_cons, Nat.add_sub_cancel, length_padded hwidth h]
  · refine length_padded (Nat.succ_pos width) (Nat.lt_of_lt_of_le h ?_)
    exact Nat.pow_le_pow_right (by decide) (Nat.le_succ width)

end Text

/-! ## Keys of clients -/

namespace Store

theorem clientKey_inj {client other : ClientId} :
    clientKey client = clientKey other ↔ client = other := by
  constructor
  · intro h
    rw [clientKey, clientKey, String.ofList_inj] at h
    exact Subtype.ext (Text.paddedInt_injective h)
  · rintro rfl
    rfl

theorem length_clientKey (client : ClientId) : (clientKey client).toList.length = 20 := by
  obtain ⟨n, hlow, hhigh⟩ := client
  rw [clientKey, String.toList_ofList]
  refine Text.length_paddedInt (show 0 < 19 by decide) ?_
  simp only [Record.IntRange.int64] at hlow hhigh ⊢
  omega

theorem toList_subscriberKey (subscriber : ClientId) :
    (subscriberKey subscriber).toList = (clientKey subscriber).toList ++ ['/'] := by
  simp [subscriberKey]

theorem length_subscriberKey (subscriber : ClientId) :
    (subscriberKey subscriber).toList.length = 21 := by
  rw [toList_subscriberKey, List.length_append, length_clientKey]
  rfl

/-- What the keys of a subscriber start with is at the start of no other subscriber's keys. -/
theorem eq_of_subscriberKey_prefix {subscriber other : ClientId} {rest : List Char}
    (h : (subscriberKey subscriber).toList <+: (subscriberKey other).toList ++ rest) :
    subscriber = other := by
  have hlength :
      (subscriberKey subscriber).toList.length = (subscriberKey other).toList.length := by
    rw [length_subscriberKey, length_subscriberKey]
  obtain ⟨behind, hbehind⟩ := h
  have hkeys := (List.append_inj hbehind hlength).1
  rw [toList_subscriberKey, toList_subscriberKey, List.append_left_inj] at hkeys
  exact clientKey_inj.mp (String.toList_inj.mp hkeys)

end Store

end TopicBroker
