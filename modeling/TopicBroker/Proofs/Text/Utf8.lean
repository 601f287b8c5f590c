import Mathlib.Data.List.Basic
import TopicBroker.Text.Utf8

/-! # Texts are read back from their bytes

A control character stands for itself among the bytes of a text, and no other character has such a
byte in it. So what is said of control characters in a text holds of its bytes. -/

namespace TopicBroker.Utf8

/-- Every text is read back from its bytes. -/
@[simp] theorem decode?_encode (text : String) : decode? (encode text) = some text := by
  have hbytes : (⟨(encode text).toArray⟩ : ByteArray) = text.toByteArray := by
    simp [encode]
  have hvalid : (⟨(encode text).toArray⟩ : ByteArray).IsValidUTF8 := hbytes ▸ text.isValidUTF8
  rw [decode?, String.fromUTF8?, dif_pos hvalid]
  exact congrArg some (String.toByteArray_inj.mp hbytes)

theorem encode_ofList_eq (cs : List Char) :
    encode (String.ofList cs) = cs.flatMap String.utf8EncodeChar := by
  simp [encode, List.utf8Encode]

theorem le_of_mem_utf8EncodeChar {c : Char} {b : UInt8} (hc : 0x20 ≤ c.toNat)
    (h : b ∈ String.utf8EncodeChar c) : 0x20 ≤ b.toNat := by
  have hc : 0x20 ≤ c.val.toNat := hc
  rw [String.utf8EncodeChar.eq_1] at h
  split at h
  · rw [List.mem_singleton.mp h, UInt8.toNat_ofNat']
    omega
  · split at h
    · simp only [List.mem_cons, List.not_mem_nil, or_false] at h
      rcases h with rfl | rfl <;> rw [UInt8.toNat_ofNat'] <;> omega
    · split at h
      · simp only [List.mem_cons, List.not_mem_nil, or_false] at h
        rcases h with rfl | rfl | rfl <;> rw [UInt8.toNat_ofNat'] <;> omega
      · simp only [List.mem_cons, List.not_mem_nil, or_false] at h
        rcases h with rfl | rfl | rfl | rfl <;> rw [UInt8.toNat_ofNat'] <;> omega

/-- The bytes of a text without control characters are not those of control characters. -/
theorem le_of_mem_encode {text : String} (htext : ∀ c ∈ text.toList, 0x20 ≤ c.toNat) {b : UInt8}
    (h : b ∈ encode text) : 0x20 ≤ b.toNat := by
  rw [← String.ofList_toList (s := text), encode_ofList_eq, List.mem_flatMap] at h
  obtain ⟨c, hc, hb⟩ := h
  exact le_of_mem_utf8EncodeChar (htext c hc) hb

end TopicBroker.Utf8
