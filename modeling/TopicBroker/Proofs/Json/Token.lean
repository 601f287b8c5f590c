import Mathlib.Data.List.TakeWhile
import TopicBroker.Proofs.Json.ReadBack

/-! # Tokens

A token is the same one whatever follows it, as long as a token may end there. So each reader of a
part of a token takes the same part from a text when its rest is another one. -/

namespace TopicBroker.Json

/-- White space between tokens. -/
def Spaces (cs : List Char) : Prop := ∀ c ∈ cs, isSpace c = true

theorem spaces_nil : Spaces [] := nofun

/-- The text is a token: a number, a quoted text, or one of the three words. -/
def Token (json : Json) (cs : List Char) : Prop :=
  readScalar cs = (json, []) ∧ json ≠ .broken

/-! ## Where tokens end -/

/-- The text is empty, or starts with a mark between tokens. -/
def Ends (rest : List Char) : Prop :=
  ∀ c ∈ rest.head?, isSpace c = true ∨ c = ',' ∨ c = ':' ∨ c = ']' ∨ c = '\x7d'

/-- The text does not start with a character of a kind. -/
def Stops (kind : Char → Bool) (rest : List Char) : Prop := ∀ c ∈ rest.head?, kind c = false

/-- The marks that stand between tokens. -/
def endMarks : List Char := [' ', '\n', '\t', '\r', ',', ':', ']', '\x7d']

theorem ends_nil : Ends [] := nofun

theorem stops_nil (kind : Char → Bool) : Stops kind [] := nofun

theorem Ends.mem_endMarks {c : Char} {rest : List Char} (h : Ends (c :: rest)) : c ∈ endMarks := by
  have hc := h c rfl
  simp only [isSpace, Bool.or_eq_true, beq_iff_eq] at hc
  simp only [endMarks, List.mem_cons, List.not_mem_nil, or_false]
  grind

theorem Ends.stops {kind : Char → Bool} {rest : List Char} (h : Ends rest)
    (hkind : endMarks.any kind = false) : Stops kind rest := by
  cases rest with
  | nil => exact stops_nil kind
  | cons c rest =>
      intro d hd
      obtain rfl := Option.some.inj hd
      exact Bool.eq_false_iff.mpr (List.any_eq_false.mp hkind c h.mem_endMarks)

theorem Stops.append {kind : Char → Bool} {part rest : List Char} (hpart : Stops kind part)
    (hrest : Stops kind rest) : Stops kind (part ++ rest) := by
  cases part with
  | nil => exact hrest
  | cons c part => exact hpart

theorem Stops.of_or {kind other : Char → Bool} {rest : List Char}
    (h : Stops (fun c => kind c || other c) rest) : Stops kind rest :=
  fun c hc => (Bool.or_eq_false_iff.mp (h c hc)).1

theorem Ends.of_spaces {space rest : List Char} (hspace : Spaces space) (hrest : Ends rest) :
    Ends (space ++ rest) := by
  cases space with
  | nil => exact hrest
  | cons c space =>
      intro d hd
      obtain rfl := Option.some.inj hd
      exact .inl (hspace c List.mem_cons_self)

/-! ## Numbers -/

/-- A reader takes the same part from a text whatever follows that part, as long as a token may end
there. -/
def TakesPart {α : Type} (read : List Char → Option (α × List Char)) : Prop :=
  ∀ cs a rest, read cs = some (a, rest) →
    ∃ part, cs = part ++ rest ∧ ∀ other, Ends other → read (part ++ other) = some (a, other)

theorem stops_dropWhile (kind : Char → Bool) (cs : List Char) : Stops kind (cs.dropWhile kind) := by
  intro c hc
  have hhead := List.head?_dropWhile_not kind cs
  rw [Option.mem_def.mp hc] at hhead
  exact hhead

theorem readDigits?_eq_some_iff {cs run rest : List Char} :
    readDigits? cs = some (run, rest) ↔
      cs = run ++ rest ∧ run ≠ [] ∧ (∀ c ∈ run, c.isDigit = true) ∧ Stops Char.isDigit rest := by
  rw [readDigits?, List.span_eq_takeWhile_dropWhile]
  constructor
  · intro h
    split at h
    · cases h
    · next hne hspan =>
        obtain ⟨rfl, rfl⟩ := Prod.mk.inj (Option.some.inj h)
        obtain ⟨hrun, hrest⟩ := Prod.mk.inj hspan
        rw [← hrun, ← hrest]
        refine ⟨List.takeWhile_append_dropWhile.symm, fun h => hne (hrun ▸ h), ?_,
          stops_dropWhile _ _⟩
        exact fun _ => List.mem_takeWhile_imp
  · rintro ⟨rfl, hne, hrun, hrest⟩
    have hleft : rest.dropWhile Char.isDigit = rest ∧ rest.takeWhile Char.isDigit = [] := by
      cases rest with
      | nil => exact ⟨rfl, rfl⟩
      | cons c rest => simp [hrest c rfl]
    rw [List.takeWhile_append_of_pos hrun, List.dropWhile_append_of_pos hrun, hleft.1, hleft.2,
      List.append_nil]
    split
    · next h => exact absurd (Prod.mk.inj h).1 hne
    · next h => rw [h]

/-- Digits are taken up to the first character that is none, so another one may stand there. -/
theorem part_readDigits? {cs run rest : List Char} (h : readDigits? cs = some (run, rest)) :
    cs = run ++ rest ∧ ∀ other, Stops Char.isDigit other →
      readDigits? (run ++ other) = some (run, other) := by
  obtain ⟨rfl, hne, hrun, -⟩ := readDigits?_eq_some_iff.mp h
  exact ⟨rfl, fun other hother => readDigits?_eq_some_iff.mpr ⟨rfl, hne, hrun, hother⟩⟩

theorem part_readWhole? {cs run rest : List Char} (h : readWhole? cs = some (run, rest)) :
    cs = run ++ rest ∧ (∃ d ds, run = d :: ds ∧ d.isDigit = true) ∧ ∀ other,
      Stops Char.isDigit other → readWhole? (run ++ other) = some (run, other) := by
  unfold readWhole? at h
  split at h
  · cases h
  · next hzero =>
      obtain ⟨hcs, hswap⟩ := part_readDigits? h
      obtain ⟨-, hne, hrun, -⟩ := readDigits?_eq_some_iff.mp h
      refine ⟨hcs, ?_, fun other hother => ?_⟩
      · obtain ⟨d, ds, rfl⟩ := List.exists_cons_of_ne_nil hne
        exact ⟨d, ds, rfl, hrun d List.mem_cons_self⟩
      · unfold readWhole?
        rw [hswap other hother]
        split
        · next hrest =>
            obtain ⟨hrun, -⟩ := Prod.mk.inj (Option.some.inj hrest)
            exact absurd (h.trans (congrArg (fun run => some (run, rest)) hrun)) (hzero _ _ _)
        · rfl

theorem part_readFraction? {cs rest : List Char} {fraction : Option (List Char)}
    (h : readFraction? cs = some (fraction, rest)) :
    ∃ part, cs = part ++ rest ∧ Stops Char.isDigit part ∧ ∀ other,
      Stops (fun c => c.isDigit || c == '.') other →
        readFraction? (part ++ other) = some (fraction, other) := by
  unfold readFraction? at h
  split at h
  · next behind =>
      obtain ⟨⟨run, left⟩, hdigits, hpair⟩ := Option.map_eq_some_iff.mp h
      obtain ⟨rfl, rfl⟩ := Prod.mk.inj hpair
      obtain ⟨rfl, hswap⟩ := part_readDigits? hdigits
      refine ⟨'.' :: run, rfl, by simp [Stops], fun other hother => ?_⟩
      simp [readFraction?, hswap other hother.of_or]
  · obtain ⟨rfl, rfl⟩ := Prod.mk.inj (Option.some.inj h)
    refine ⟨[], rfl, stops_nil _, fun other hother => ?_⟩
    rw [List.nil_append]
    unfold readFraction?
    split
    · exact absurd (hother '.' rfl) (by decide)
    · rfl

/-- Reads the number of an exponent, behind its letter. -/
def readPower? (cs : List Char) : Option (Option (Bool × List Char) × List Char) :=
  let (negative, cs) := match cs with
    | '-' :: cs => (true, cs)
    | '+' :: cs => (false, cs)
    | cs => (false, cs)
  (readDigits? cs).map fun (run, rest) => (some (negative, run), rest)

theorem part_readPower? {cs rest : List Char} {exponent : Option (Bool × List Char)}
    (h : readPower? cs = some (exponent, rest)) :
    ∃ part, cs = part ++ rest ∧ ∀ other, Stops Char.isDigit other →
      readPower? (part ++ other) = some (exponent, other) := by
  unfold readPower? at h
  split at h
  next negative behind hsign =>
  obtain ⟨⟨run, left⟩, hdigits, hpair⟩ := Option.map_eq_some_iff.mp h
  obtain ⟨rfl, rfl⟩ := Prod.mk.inj hpair
  obtain ⟨rfl, hswap⟩ := part_readDigits? hdigits
  obtain ⟨-, hne, hrun, -⟩ := readDigits?_eq_some_iff.mp hdigits
  split at hsign
  · next behind =>
      obtain ⟨rfl, rfl⟩ := Prod.mk.inj hsign
      exact ⟨'-' :: run, rfl, fun other hother => by simp [readPower?, hswap other hother]⟩
  · next behind =>
      obtain ⟨rfl, rfl⟩ := Prod.mk.inj hsign
      exact ⟨'+' :: run, rfl, fun other hother => by simp [readPower?, hswap other hother]⟩
  · obtain ⟨rfl, rfl⟩ := Prod.mk.inj hsign
    refine ⟨run, rfl, fun other hother => ?_⟩
    obtain ⟨d, ds, rfl⟩ := List.exists_cons_of_ne_nil hne
    have hd := hrun d List.mem_cons_self
    have hminus : d ≠ '-' := by rintro rfl; exact absurd hd (by decide)
    have hplus : d ≠ '+' := by rintro rfl; exact absurd hd (by decide)
    have hread := hswap other hother
    rw [List.cons_append] at hread ⊢
    simp [readPower?, hminus, hplus, hread]

theorem part_readExponent? {cs rest : List Char} {exponent : Option (Bool × List Char)}
    (h : readExponent? cs = some (exponent, rest)) :
    ∃ part, cs = part ++ rest ∧ Stops (fun c => c.isDigit || c == '.') part ∧ ∀ other,
      Stops (fun c => c.isDigit || c == 'e' || c == 'E') other →
        readExponent? (part ++ other) = some (exponent, other) := by
  unfold readExponent? at h
  split at h
  · next behind =>
      obtain ⟨part, rfl, hswap⟩ := part_readPower? h
      exact ⟨'e' :: part, rfl, by simp [Stops], fun other hother => hswap other hother.of_or.of_or⟩
  · next behind =>
      obtain ⟨part, rfl, hswap⟩ := part_readPower? h
      exact ⟨'E' :: part, rfl, by simp [Stops], fun other hother => hswap other hother.of_or.of_or⟩
  · obtain ⟨rfl, rfl⟩ := Prod.mk.inj (Option.some.inj h)
    refine ⟨[], rfl, stops_nil _, fun other hother => ?_⟩
    rw [List.nil_append]
    unfold readExponent?
    split
    · exact absurd (hother 'e' rfl) (by decide)
    · exact absurd (hother 'E' rfl) (by decide)
    · rfl

/-- Reads a literal without a sign. -/
def readUnsigned? (negative : Bool) (cs : List Char) : Option (Literal × List Char) := do
  let (whole, cs) ← readWhole? cs
  let (fraction, cs) ← readFraction? cs
  let (exponent, cs) ← readExponent? cs
  some (⟨negative, whole, fraction, exponent⟩, cs)

theorem readLiteral?_of_ne {cs : List Char} (h : ∀ c ∈ cs.head?, c ≠ '-') :
    readLiteral? cs = readUnsigned? false cs := by
  unfold readLiteral?
  split
  next hsign =>
  split at hsign
  · exact absurd rfl (h '-' rfl)
  · obtain ⟨rfl, rfl⟩ := Prod.mk.inj hsign
    rfl

theorem part_readUnsigned? {negative : Bool} {cs rest : List Char} {literal : Literal}
    (h : readUnsigned? negative cs = some (literal, rest)) :
    ∃ part, cs = part ++ rest ∧ (∃ d ds, part = d :: ds ∧ d.isDigit = true) ∧
      ∀ other, Ends other → readUnsigned? negative (part ++ other) = some (literal, other) := by
  obtain ⟨⟨whole, left⟩, hwhole, h⟩ := Option.bind_eq_some_iff.mp h
  obtain ⟨⟨fraction, left⟩, hfraction, h⟩ := Option.bind_eq_some_iff.mp h
  obtain ⟨⟨exponent, left⟩, hexponent, h⟩ := Option.bind_eq_some_iff.mp h
  obtain ⟨rfl, rfl⟩ := Prod.mk.inj (Option.some.inj h)
  obtain ⟨rfl, ⟨d, ds, rfl, hd⟩, hswap⟩ := part_readWhole? hwhole
  obtain ⟨places, rfl, hplaces, hswap'⟩ := part_readFraction? hfraction
  obtain ⟨power, rfl, hpower, hswap''⟩ := part_readExponent? hexponent
  refine ⟨d :: ds ++ (places ++ power), by simp, ⟨d, _, rfl, hd⟩, fun other hother => ?_⟩
  have hletter := hswap'' other (hother.stops (by decide))
  have hpoint := hswap' (power ++ other) (hpower.append (hother.stops (by decide)))
  have hdigits := hswap (places ++ (power ++ other))
    (hplaces.append (hpower.of_or.append (hother.stops (by decide))))
  rw [List.append_assoc, List.append_assoc, readUnsigned?, hdigits]
  simp [hpoint, hletter]

theorem takesPart_readLiteral? : TakesPart readLiteral? := by
  intro cs literal rest h
  by_cases hminus : ∃ behind, cs = '-' :: behind
  · obtain ⟨behind, rfl⟩ := hminus
    have hunsigned : readUnsigned? true behind = some (literal, rest) := h
    obtain ⟨part, rfl, -, hswap⟩ := part_readUnsigned? hunsigned
    exact ⟨'-' :: part, rfl, hswap⟩
  · have hsign : ∀ c ∈ cs.head?, c ≠ '-' := by
      rintro c hc rfl
      obtain ⟨behind, rfl⟩ := List.head?_eq_some_iff.mp hc
      exact hminus ⟨behind, rfl⟩
    rw [readLiteral?_of_ne hsign] at h
    obtain ⟨part, rfl, ⟨d, ds, rfl, hd⟩, hswap⟩ := part_readUnsigned? h
    refine ⟨d :: ds, rfl, fun other hother => ?_⟩
    rw [readLiteral?_of_ne, hswap other hother]
    rintro c hc rfl
    obtain rfl := Option.some.inj hc
    exact absurd hd (by decide)

theorem takesPart_readNumber? : TakesPart readNumber? := by
  intro cs number rest h
  obtain ⟨⟨literal, left⟩, hliteral, hpair⟩ := Option.map_eq_some_iff.mp h
  obtain ⟨rfl, rfl⟩ := Prod.mk.inj hpair
  obtain ⟨part, rfl, hswap⟩ := takesPart_readLiteral? _ _ _ hliteral
  exact ⟨part, rfl, fun other hother => by simp [readNumber?, hswap other hother]⟩

/-! ## Quoted texts -/

theorem readUnits?_escapeLetter {c letter : Char} (h : unescape? letter = some c)
    (rest : List Char) :
    readUnits? ('\\' :: letter :: rest) =
      (readUnits? rest).map fun (units, rest) => (.plain c :: units, rest) := by
  have hletter : letter ≠ 'u' := by
    rintro rfl
    cases h
  rw [readUnits?.eq_4 _ _ fun _ _ _ _ _ heq _ => hletter heq, h]
  cases readUnits? rest <;> rfl

/-- A quoted text ends with its closing quote, so anything may follow it. -/
theorem part_readUnits? {cs rest : List Char} {units : List CodeUnit}
    (h : readUnits? cs = some (units, rest)) :
    ∃ part, cs = part ++ rest ∧ ∀ other, readUnits? (part ++ other) = some (units, other) := by
  fun_induction readUnits? cs generalizing units with
  | case1 => cases h
  | case2 behind =>
      obtain ⟨rfl, rfl⟩ := Prod.mk.inj (Option.some.inj h)
      exact ⟨['"'], rfl, fun _ => rfl⟩
  | case3 a b c d behind ih =>
      obtain ⟨n, hquad, h⟩ := Option.bind_eq_some_iff.mp h
      obtain ⟨⟨more, left⟩, hmore, hpair⟩ := Option.bind_eq_some_iff.mp h
      obtain ⟨rfl, rfl⟩ := Prod.mk.inj (Option.some.inj hpair)
      obtain ⟨part, rfl, hswap⟩ := ih hmore
      refine ⟨'\\' :: 'u' :: a :: b :: c :: d :: part, rfl, fun other => ?_⟩
      simp [readUnits?, hquad, hswap]
  | case4 letter behind _ ih =>
      obtain ⟨c, hletter, h⟩ := Option.bind_eq_some_iff.mp h
      obtain ⟨⟨more, left⟩, hmore, hpair⟩ := Option.bind_eq_some_iff.mp h
      obtain ⟨rfl, rfl⟩ := Prod.mk.inj (Option.some.inj hpair)
      obtain ⟨part, rfl, hswap⟩ := ih hmore
      refine ⟨'\\' :: letter :: part, rfl, fun other => ?_⟩
      rw [List.cons_append, List.cons_append, readUnits?_escapeLetter hletter, hswap]
      rfl
  | case5 => cases h
  | case6 c behind hquote _ hescape hcontrol ih =>
      obtain ⟨⟨more, left⟩, hmore, hpair⟩ := Option.map_eq_some_iff.mp h
      obtain ⟨rfl, rfl⟩ := Prod.mk.inj hpair
      have hslash : c ≠ '\\' := by
        intro heq
        cases behind with
        | nil => cases hmore
        | cons d behind => exact hescape d behind heq rfl
      obtain ⟨part, rfl, hswap⟩ := ih hmore
      refine ⟨c :: part, rfl, fun other => ?_⟩
      rw [List.cons_append, readUnits?_plain hquote hslash hcontrol, hswap]
      rfl

theorem part_readString? {cs rest : List Char} {s : Option String}
    (h : readString? cs = some (s, rest)) :
    ∃ part, cs = part ++ rest ∧ ∀ other, readString? (part ++ other) = some (s, other) := by
  obtain ⟨⟨units, left⟩, hunits, hpair⟩ := Option.map_eq_some_iff.mp h
  obtain ⟨rfl, rfl⟩ := Prod.mk.inj hpair
  obtain ⟨part, rfl, hswap⟩ := part_readUnits? hunits
  exact ⟨part, rfl, fun other => by simp [readString?, hswap]⟩

/-! ## Tokens -/

/-- The characters that tokens start with. -/
def Starts (c : Char) : Prop := c ∈ ['n', 't', 'f', '"', '-'] ∨ c.isDigit = true

theorem starts_of_readNumber? {cs rest : List Char} {number : Option Number}
    (h : readNumber? cs = some (number, rest)) :
    ∃ c behind, cs = c :: behind ∧ (c = '-' ∨ c.isDigit = true) := by
  obtain ⟨⟨literal, left⟩, hliteral, -⟩ := Option.map_eq_some_iff.mp h
  by_cases hminus : ∃ behind, cs = '-' :: behind
  · obtain ⟨behind, rfl⟩ := hminus
    exact ⟨'-', behind, rfl, .inl rfl⟩
  · have hsign : ∀ c ∈ cs.head?, c ≠ '-' := by
      rintro c hc rfl
      obtain ⟨behind, rfl⟩ := List.head?_eq_some_iff.mp hc
      exact hminus ⟨behind, rfl⟩
    rw [readLiteral?_of_ne hsign] at hliteral
    obtain ⟨part, rfl, ⟨d, ds, rfl, hd⟩, -⟩ := part_readUnsigned? hliteral
    exact ⟨d, ds ++ left, rfl, .inr hd⟩

/-- A token is taken from the front of a text, the same one whatever follows it. -/
theorem part_readScalar {cs rest : List Char} {json : Json} (h : readScalar cs = (json, rest))
    (hwhole : json ≠ .broken) :
    ∃ c part, cs = c :: part ++ rest ∧ Starts c ∧
      ∀ other, Ends other → readScalar (c :: part ++ other) = (json, other) := by
  unfold readScalar at h
  split at h
  · obtain ⟨rfl, rfl⟩ := Prod.mk.inj h
    exact ⟨'n', ['u', 'l', 'l'], rfl, .inl (by decide), fun _ _ => rfl⟩
  · obtain ⟨rfl, rfl⟩ := Prod.mk.inj h
    exact ⟨'t', ['r', 'u', 'e'], rfl, .inl (by decide), fun _ _ => rfl⟩
  · obtain ⟨rfl, rfl⟩ := Prod.mk.inj h
    exact ⟨'f', ['a', 'l', 's', 'e'], rfl, .inl (by decide), fun _ _ => rfl⟩
  · next behind =>
      cases hstring : readString? behind with
      | none =>
          rw [hstring] at h
          exact absurd (Prod.mk.inj h).1.symm hwhole
      | some read =>
          rw [hstring] at h
          obtain ⟨rfl, rfl⟩ := Prod.mk.inj h
          obtain ⟨part, rfl, hswap⟩ := part_readString? hstring
          refine ⟨'"', part, rfl, .inl (by decide), fun other _ => ?_⟩
          simp [readScalar, hswap]
  · cases hnumber : readNumber? cs with
    | none =>
        rw [hnumber] at h
        exact absurd (Prod.mk.inj h).1.symm hwhole
    | some read =>
        rw [hnumber] at h
        obtain ⟨rfl, rfl⟩ := Prod.mk.inj h
        obtain ⟨part, rfl, hswap⟩ := takesPart_readNumber? _ _ _ hnumber
        have hpart := hswap [] ends_nil
        rw [List.append_nil] at hpart
        obtain ⟨c, part, rfl, hc⟩ := starts_of_readNumber? hpart
        refine ⟨c, part, rfl, ?_, fun other hother => ?_⟩
        · exact hc.imp (fun heq : c = '-' => by simp [heq]) id
        · rw [List.cons_append, readScalar_of_number hc, ← List.cons_append, hswap other hother]
          rfl

/-- A value is not read from a part of a token. -/
theorem readScalar_of_token {json : Json} {cs rest : List Char} (h : Token json cs)
    (hrest : Ends rest) : readScalar (cs ++ rest) = (json, rest) := by
  obtain ⟨c, part, rfl, -, hswap⟩ := part_readScalar h.1 h.2
  rw [List.append_nil]
  exact hswap rest hrest

theorem exists_token_of_readScalar {cs rest : List Char} {json : Json}
    (h : readScalar cs = (json, rest)) (hwhole : json ≠ .broken) :
    ∃ part, cs = part ++ rest ∧ Token json part := by
  obtain ⟨c, part, rfl, -, hswap⟩ := part_readScalar h hwhole
  refine ⟨c :: part, rfl, ?_, hwhole⟩
  have hpart := hswap [] ends_nil
  rwa [List.append_nil] at hpart

theorem Token.starts {json : Json} {cs : List Char} (h : Token json cs) :
    ∃ c part, cs = c :: part ∧ Starts c := by
  obtain ⟨c, part, rfl, hc, -⟩ := part_readScalar h.1 h.2
  exact ⟨c, part ++ [], rfl, hc⟩

theorem Starts.marks {c : Char} (h : Starts c) :
    isSpace c = false ∧ c ≠ '[' ∧ c ≠ ']' ∧ c ≠ '\x7b' ∧ c ≠ '\x7d' := by
  rcases h with h | h
  · simp only [List.mem_cons, List.not_mem_nil, or_false] at h
    rcases h with rfl | rfl | rfl | rfl | rfl <;> decide
  · refine ⟨(opens_of_isDigit h).1, ?_, ?_, ?_, ?_⟩ <;> rintro rfl <;> exact absurd h (by decide)

end TopicBroker.Json
