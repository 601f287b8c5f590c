import Mathlib.Algebra.GroupWithZero.Nat
import TopicBroker.Base64

/-! # Base64 texts are read back

Exactly the texts that bytes are written as are read, so that no two texts are read as the same
bytes. They are the texts of letters whose padding is complete and leaves no bits over. -/

namespace TopicBroker.Base64

theorem bits?_letter {n : Nat} (h : n < 64) : bits? (letter n) = some n := by
  revert n
  decide

theorem letter_ne_pad {n : Nat} (h : n < 64) : letter n ≠ '=' := by
  revert n
  decide

theorem ofNat_eq {n : Nat} {a : UInt8} (h : n = a.toNat) : UInt8.ofNat n = a := by
  rw [h, UInt8.ofNat_toNat]

/-- Every list of bytes is read back from its text. -/
theorem decode?_encode (bytes : List UInt8) : decode? (encode bytes) = some bytes := by
  induction bytes using encode.induct with
  | case1 => rfl
  | case2 a =>
      have ha := a.toNat_lt
      have hfirst := bits?_letter (n := a.toNat / 4) (by omega)
      have hsecond := bits?_letter (n := a.toNat % 4 * 16) (by omega)
      have hbyte : UInt8.ofNat (a.toNat / 4 * 4 + a.toNat % 4 * 16 / 16) = a :=
        ofNat_eq (by omega)
      have hfour : a.toNat % 4 * 16 % 16 = 0 := by omega
      simp only [encode, decode?, hfirst, hsecond, hfour, Option.bind_eq_bind, Option.bind_some,
        if_true]
      rw [hbyte]
  | case3 a b =>
      have ha := a.toNat_lt
      have hb := b.toNat_lt
      have hfirst := bits?_letter (n := a.toNat / 4) (by omega)
      have hsecond := bits?_letter (n := a.toNat % 4 * 16 + b.toNat / 16) (by omega)
      have hthird := bits?_letter (n := b.toNat % 16 * 4) (by omega)
      have hpad := letter_ne_pad (n := b.toNat % 16 * 4) (by omega)
      have hfour : b.toNat % 16 * 4 % 4 = 0 := by omega
      have hbyte : UInt8.ofNat (a.toNat / 4 * 4 + (a.toNat % 4 * 16 + b.toNat / 16) / 16) = a :=
        ofNat_eq (by omega)
      have hnext : UInt8.ofNat
          ((a.toNat % 4 * 16 + b.toNat / 16) % 16 * 16 + b.toNat % 16 * 4 / 4) = b :=
        ofNat_eq (by omega)
      simp only [encode, decode?.eq_3 _ _ _ hpad, hfirst, hsecond, hthird, hfour,
        Option.bind_eq_bind, Option.bind_some, if_true]
      rw [hbyte, hnext]
  | case4 a b c rest ih =>
      have ha := a.toNat_lt
      have hb := b.toNat_lt
      have hc := c.toNat_lt
      have hfirst := bits?_letter (n := a.toNat / 4) (by omega)
      have hsecond := bits?_letter (n := a.toNat % 4 * 16 + b.toNat / 16) (by omega)
      have hthird := bits?_letter (n := b.toNat % 16 * 4 + c.toNat / 64) (by omega)
      have hfourth := bits?_letter (n := c.toNat % 64) (by omega)
      have hpad := letter_ne_pad (n := c.toNat % 64) (by omega)
      have hbyte : UInt8.ofNat (a.toNat / 4 * 4 + (a.toNat % 4 * 16 + b.toNat / 16) / 16) = a :=
        ofNat_eq (by omega)
      have hnext : UInt8.ofNat ((a.toNat % 4 * 16 + b.toNat / 16) % 16 * 16 +
          (b.toNat % 16 * 4 + c.toNat / 64) / 4) = b := ofNat_eq (by omega)
      have hlast : UInt8.ofNat ((b.toNat % 16 * 4 + c.toNat / 64) % 4 * 64 + c.toNat % 64) = c :=
        ofNat_eq (by omega)
      rw [encode, decode?.eq_4 _ _ _ _ _ (fun _ h _ => hpad h) (fun h _ => hpad h)]
      simp only [hfirst, hsecond, hthird, hfourth, ih, Option.bind_eq_bind, Option.bind_some]
      rw [hbyte, hnext, hlast]

/-! ## Texts that are read -/

/-- Six bits have one letter. -/
theorem letter_of_bits? {c : Char} {n : Nat} (h : bits? c = some n) : n < 64 ∧ letter n = c := by
  unfold bits? at h
  split at h
  · next hc =>
      have hlow : 65 ≤ c.toNat := hc.1
      have hhigh : c.toNat ≤ 90 := hc.2
      obtain rfl : c.toNat - 65 = n := Option.some.inj h
      have hn : c.toNat - 65 < 26 := by omega
      have hback : 65 + (c.toNat - 65) = c.toNat := by omega
      refine ⟨by omega, ?_⟩
      rw [letter, if_pos hn]
      exact (congrArg Char.ofNat hback).trans c.ofNat_toNat
  · split at h
    · next hc =>
        have hlow : 97 ≤ c.toNat := hc.1
        have hhigh : c.toNat ≤ 122 := hc.2
        obtain rfl : c.toNat - 97 + 26 = n := Option.some.inj h
        have hfirst : ¬ c.toNat - 97 + 26 < 26 := by omega
        have hn : c.toNat - 97 + 26 < 52 := by omega
        have hback : 97 + (c.toNat - 97 + 26 - 26) = c.toNat := by omega
        refine ⟨by omega, ?_⟩
        rw [letter, if_neg hfirst, if_pos hn]
        exact (congrArg Char.ofNat hback).trans c.ofNat_toNat
    · split at h
      · next hc =>
          have hlow : 48 ≤ c.toNat := hc.1
          have hhigh : c.toNat ≤ 57 := hc.2
          obtain rfl : c.toNat - 48 + 52 = n := Option.some.inj h
          have hfirst : ¬ c.toNat - 48 + 52 < 26 := by omega
          have hsecond : ¬ c.toNat - 48 + 52 < 52 := by omega
          have hn : c.toNat - 48 + 52 < 62 := by omega
          have hback : 48 + (c.toNat - 48 + 52 - 52) = c.toNat := by omega
          refine ⟨by omega, ?_⟩
          rw [letter, if_neg hfirst, if_neg hsecond, if_pos hn]
          exact (congrArg Char.ofNat hback).trans c.ofNat_toNat
      · split at h
        · next hc =>
            obtain rfl := Option.some.inj h
            exact ⟨by decide, hc.symm⟩
        · split at h
          · next hc =>
              obtain rfl := Option.some.inj h
              exact ⟨by decide, hc.symm⟩
          · cases h

theorem letter_eq {c : Char} {n m : Nat} (h : bits? c = some n) (hm : m = n) : letter m = c := by
  rw [hm]
  exact (letter_of_bits? h).2

/-- Every text that is read is the text of its bytes, to the last bit. -/
theorem encode_of_decode? {cs : List Char} {bytes : List UInt8} (h : decode? cs = some bytes) :
    encode bytes = cs := by
  have hsize : UInt8.size = 256 := rfl
  fun_induction decode? cs generalizing bytes with
  | case1 =>
      obtain rfl := Option.some.inj h
      rfl
  | case2 c d =>
      simp only [Option.bind_eq_bind, Option.bind_eq_some_iff] at h
      obtain ⟨p, hp, q, hq, h⟩ := h
      obtain ⟨hfour, rfl⟩ : q % 16 = 0 ∧ [UInt8.ofNat (p * 4 + q / 16)] = bytes := by
        simpa using h
      have hplt := (letter_of_bits? hp).1
      have hqlt := (letter_of_bits? hq).1
      have hbyte : (UInt8.ofNat (p * 4 + q / 16)).toNat = p * 4 + q / 16 :=
        UInt8.toNat_ofNat_of_lt' (by omega)
      rw [encode, hbyte, letter_eq hp (by omega), letter_eq hq (by omega)]
  | case3 c d e =>
      simp only [Option.bind_eq_bind, Option.bind_eq_some_iff] at h
      obtain ⟨p, hp, q, hq, r, hr, h⟩ := h
      obtain ⟨hfour, rfl⟩ : r % 4 = 0 ∧
          [UInt8.ofNat (p * 4 + q / 16), UInt8.ofNat (q % 16 * 16 + r / 4)] = bytes := by
        simpa using h
      have hplt := (letter_of_bits? hp).1
      have hqlt := (letter_of_bits? hq).1
      have hrlt := (letter_of_bits? hr).1
      have hbyte : (UInt8.ofNat (p * 4 + q / 16)).toNat = p * 4 + q / 16 :=
        UInt8.toNat_ofNat_of_lt' (by omega)
      have hnext : (UInt8.ofNat (q % 16 * 16 + r / 4)).toNat = q % 16 * 16 + r / 4 :=
        UInt8.toNat_ofNat_of_lt' (by omega)
      rw [encode, hbyte, hnext, letter_eq hp (by omega), letter_eq hq (by omega),
        letter_eq hr (by omega)]
  | case4 c d e f rest _ _ ih =>
      simp only [Option.bind_eq_bind, Option.bind_eq_some_iff] at h
      obtain ⟨p, hp, q, hq, r, hr, s, hs, others, hothers, h⟩ := h
      obtain rfl := Option.some.inj h
      have hplt := (letter_of_bits? hp).1
      have hqlt := (letter_of_bits? hq).1
      have hrlt := (letter_of_bits? hr).1
      have hslt := (letter_of_bits? hs).1
      have hbyte : (UInt8.ofNat (p * 4 + q / 16)).toNat = p * 4 + q / 16 :=
        UInt8.toNat_ofNat_of_lt' (by omega)
      have hnext : (UInt8.ofNat (q % 16 * 16 + r / 4)).toNat = q % 16 * 16 + r / 4 :=
        UInt8.toNat_ofNat_of_lt' (by omega)
      have hlast : (UInt8.ofNat (r % 4 * 64 + s)).toNat = r % 4 * 64 + s :=
        UInt8.toNat_ofNat_of_lt' (by omega)
      rw [encode, hbyte, hnext, hlast, letter_eq hp (by omega), letter_eq hq (by omega),
        letter_eq hr (by omega), letter_eq hs (by omega), ih hothers]
  | case5 => cases h

/-- Exactly the texts of bytes are read: padding has to be there, and the bits that it leaves over
have to be zero. -/
theorem decode?_eq_some_iff {cs : List Char} {bytes : List UInt8} :
    decode? cs = some bytes ↔ cs = encode bytes := by
  constructor
  · intro h
    exact (encode_of_decode? h).symm
  · rintro rfl
    exact decode?_encode bytes

/-! ## Canonical texts -/

/-- The letters in the order of their bits. -/
def alphabet : List Char :=
  "ABCDEFGHIJKLMNOPQRSTUVWXYZabcdefghijklmnopqrstuvwxyz0123456789+/".toList

/-- The text is made of letters and at most two marks of padding that fill up the last four, and
the bits of the last letter that the padding leaves over are zero. -/
def Canonical (cs : List Char) : Prop :=
  ∃ letters padding, cs = letters ++ List.replicate padding '=' ∧ padding ≤ 2 ∧
    (letters.length + padding) % 4 = 0 ∧ (∀ c ∈ letters, c ∈ alphabet) ∧
    ∀ c ∈ letters.getLast?, alphabet.idxOf c % 4 ^ padding = 0

theorem mem_alphabet_iff {c : Char} : c ∈ alphabet ↔ ∃ n < 64, letter n = c := by
  have htable : alphabet = (List.range 64).map letter := by decide
  rw [htable, List.mem_map]
  simp only [List.mem_range]

theorem mem_alphabet_letter {n : Nat} (h : n < 64) : letter n ∈ alphabet :=
  mem_alphabet_iff.mpr ⟨n, h, rfl⟩

theorem idxOf_letter {n : Nat} (h : n < 64) : alphabet.idxOf (letter n) = n := by
  revert n
  decide

theorem bits?_of_mem {c : Char} (h : c ∈ alphabet) : bits? c = some (alphabet.idxOf c) := by
  obtain ⟨n, hn, rfl⟩ := mem_alphabet_iff.mp h
  rw [idxOf_letter hn, bits?_letter hn]

theorem ne_pad_of_mem {c : Char} (h : c ∈ alphabet) : c ≠ '=' := by
  obtain ⟨n, hn, rfl⟩ := mem_alphabet_iff.mp h
  exact letter_ne_pad hn

theorem canonical_group {p q r s : Char} {cs : List Char}
    (hletters : ∀ c ∈ [p, q, r, s], c ∈ alphabet) (h : Canonical cs) :
    Canonical (p :: q :: r :: s :: cs) := by
  obtain ⟨letters, padding, rfl, hpadding, hlength, hmem, hlast⟩ := h
  refine ⟨p :: q :: r :: s :: letters, padding, rfl, hpadding, ?_, ?_, ?_⟩
  · simp only [List.length_cons]
    omega
  · intro c hc
    rcases List.mem_append.mp (show c ∈ [p, q, r, s] ++ letters from hc) with hc | hc
    · exact hletters c hc
    · exact hmem c hc
  · intro c hc
    cases letters with
    | nil =>
        obtain rfl : padding = 0 := by
          rw [List.length_nil] at hlength
          omega
        exact Nat.mod_one _
    | cons l letters =>
        simp only [List.getLast?_cons_cons] at hc
        exact hlast c hc

theorem canonical_encode (bytes : List UInt8) : Canonical (encode bytes) := by
  induction bytes using encode.induct with
  | case1 => exact ⟨[], 0, rfl, by decide, rfl, nofun, nofun⟩
  | case2 a =>
      have ha := a.toNat_lt
      refine ⟨[letter (a.toNat / 4), letter (a.toNat % 4 * 16)], 2, rfl, by decide, by simp, ?_, ?_⟩
      · simp only [List.forall_mem_cons]
        exact ⟨mem_alphabet_letter (by omega), mem_alphabet_letter (by omega), nofun⟩
      · intro c hc
        obtain rfl : letter (a.toNat % 4 * 16) = c := Option.some.inj hc
        rw [idxOf_letter (by omega)]
        omega
  | case3 a b =>
      have ha := a.toNat_lt
      have hb := b.toNat_lt
      refine ⟨[letter (a.toNat / 4), letter (a.toNat % 4 * 16 + b.toNat / 16),
        letter (b.toNat % 16 * 4)], 1, rfl, by decide, by simp, ?_, ?_⟩
      · simp only [List.forall_mem_cons]
        exact ⟨mem_alphabet_letter (by omega), mem_alphabet_letter (by omega),
          mem_alphabet_letter (by omega), nofun⟩
      · intro c hc
        obtain rfl : letter (b.toNat % 16 * 4) = c := Option.some.inj hc
        rw [idxOf_letter (by omega)]
        omega
  | case4 a b c rest ih =>
      have ha := a.toNat_lt
      have hb := b.toNat_lt
      have hc := c.toNat_lt
      refine canonical_group ?_ ih
      simp only [List.forall_mem_cons]
      exact ⟨mem_alphabet_letter (by omega), mem_alphabet_letter (by omega),
        mem_alphabet_letter (by omega), mem_alphabet_letter (by omega), nofun⟩

theorem exists_decode?_of_letters {padding : Nat} (hpadding : padding ≤ 2) :
    ∀ letters : List Char, (letters.length + padding) % 4 = 0 → (∀ c ∈ letters, c ∈ alphabet) →
      (∀ c ∈ letters.getLast?, alphabet.idxOf c % 4 ^ padding = 0) →
      ∃ bytes, decode? (letters ++ List.replicate padding '=') = some bytes
  | [], hlength, _, _ => by
      obtain rfl : padding = 0 := by
        rw [List.length_nil] at hlength
        omega
      exact ⟨[], rfl⟩
  | [p], hlength, _, _ => by
      rw [List.length_singleton] at hlength
      omega
  | [p, q], hlength, hmem, hlast => by
      obtain rfl : padding = 2 := by
        simp only [List.length_cons, List.length_nil] at hlength
        omega
      have hp := bits?_of_mem (hmem p (by simp))
      have hq := bits?_of_mem (hmem q (by simp))
      have hzero : alphabet.idxOf q % 16 = 0 := hlast q rfl
      refine ⟨[UInt8.ofNat (alphabet.idxOf p * 4 + alphabet.idxOf q / 16)], ?_⟩
      simp [List.replicate, decode?, hp, hq, hzero]
  | [p, q, r], hlength, hmem, hlast => by
      obtain rfl : padding = 1 := by
        simp only [List.length_cons, List.length_nil] at hlength
        omega
      have hp := bits?_of_mem (hmem p (by simp))
      have hq := bits?_of_mem (hmem q (by simp))
      have hr := bits?_of_mem (hmem r (by simp))
      have hpad := ne_pad_of_mem (hmem r (by simp))
      have hzero : alphabet.idxOf r % 4 = 0 := hlast r rfl
      refine ⟨[UInt8.ofNat (alphabet.idxOf p * 4 + alphabet.idxOf q / 16),
        UInt8.ofNat (alphabet.idxOf q % 16 * 16 + alphabet.idxOf r / 4)], ?_⟩
      simp [List.replicate, decode?.eq_3 _ _ _ hpad, hp, hq, hr, hzero]
  | p :: q :: r :: s :: letters, hlength, hmem, hlast => by
      have hp := bits?_of_mem (hmem p (by simp))
      have hq := bits?_of_mem (hmem q (by simp))
      have hr := bits?_of_mem (hmem r (by simp))
      have hs := bits?_of_mem (hmem s (by simp))
      have hpad := ne_pad_of_mem (hmem s (by simp))
      have hrest : (letters.length + padding) % 4 = 0 := by
        simp only [List.length_cons] at hlength
        omega
      have hlastRest : ∀ c ∈ letters.getLast?, alphabet.idxOf c % 4 ^ padding = 0 := by
        intro c hc
        cases letters with
        | nil => cases hc
        | cons l letters => exact hlast c (by simpa using hc)
      obtain ⟨bytes, hbytes⟩ := exists_decode?_of_letters hpadding letters hrest
        (fun c hc => hmem c (by simp [hc])) hlastRest
      simp only [List.cons_append]
      rw [decode?.eq_4 _ _ _ _ _ (fun _ h _ => hpad h) (fun h _ => hpad h)]
      simp only [hp, hq, hr, hs, hbytes, Option.bind_eq_bind, Option.bind_some]
      exact ⟨_, rfl⟩

/-- The canonical texts are those that bytes are written as. -/
theorem canonical_iff {cs : List Char} : Canonical cs ↔ ∃ bytes, cs = encode bytes := by
  constructor
  · rintro ⟨letters, padding, rfl, hpadding, hlength, hmem, hlast⟩
    obtain ⟨bytes, hbytes⟩ := exists_decode?_of_letters hpadding letters hlength hmem hlast
    exact ⟨bytes, decode?_eq_some_iff.mp hbytes⟩
  · rintro ⟨bytes, rfl⟩
    exact canonical_encode bytes

end TopicBroker.Base64
