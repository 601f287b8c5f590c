import Mathlib.Data.List.DropRight
import TopicBroker.Xml.Event
import TopicBroker.Xml.Writer

/-! # Elements are read back

An element that was written is read as its start tag, its content and its end tag. White space at
the ends of a text is dropped on the way, and nothing else. -/

namespace TopicBroker.Xml

/-! ## White space at the ends of a text -/

/-- Drops white space at both ends. -/
def trimEnds (cs : List Char) : List Char :=
  trimBack (trimFront cs)

/-- There is no white space at either end. -/
def IsTrim (cs : List Char) : Prop :=
  (∀ c ∈ cs.head?, isSpace c = false) ∧ ∀ c ∈ cs.getLast?, isSpace c = false

instance (cs : List Char) : Decidable (IsTrim cs) :=
  inferInstanceAs (Decidable (_ ∧ _))

theorem trimFront_eq_self_iff {cs : List Char} :
    trimFront cs = cs ↔ ∀ c ∈ cs.head?, isSpace c = false := by
  cases cs with
  | nil => simp [trimFront]
  | cons c cs => simp [trimFront, List.dropWhile_eq_self_iff]

theorem trimBack_eq_self_iff {cs : List Char} :
    trimBack cs = cs ↔ ∀ c ∈ cs.getLast?, isSpace c = false := by
  rw [trimBack, List.reverse_eq_iff, ← List.head?_reverse]
  exact trimFront_eq_self_iff

theorem head?_trimFront (cs : List Char) : ∀ c ∈ (trimFront cs).head?, isSpace c = false := by
  intro c hc
  have hhead := List.head?_dropWhile_not isSpace cs
  rw [trimFront, Option.mem_def] at hc
  simpa [hc] using hhead

/-- A text is kept as it is if and only if it has no white space at its ends. -/
theorem trimEnds_eq_self_iff {cs : List Char} : trimEnds cs = cs ↔ IsTrim cs := by
  constructor
  · intro h
    have hback : (trimBack (trimFront cs)).length ≤ (trimFront cs).length :=
      (List.rdropWhile_prefix isSpace _).length_le
    have hfront : trimFront cs = cs := by
      refine (List.dropWhile_suffix isSpace).eq_of_length_le ?_
      rwa [← trimEnds, h] at hback
    rw [trimEnds, hfront] at h
    exact ⟨trimFront_eq_self_iff.mp hfront, trimBack_eq_self_iff.mp h⟩
  · intro ⟨hfront, hback⟩
    rw [trimEnds, trimFront_eq_self_iff.mpr hfront, trimBack_eq_self_iff.mpr hback]

/-- What does not start with white space is not white space alone. -/
theorem trimBack_ne_nil {cs : List Char} (hne : cs ≠ []) (h : ∀ c ∈ cs.head?, isSpace c = false) :
    trimBack cs ≠ [] := by
  intro hnil
  obtain ⟨c, cs, rfl⟩ := List.exists_cons_of_ne_nil hne
  have hspace : isSpace c = true := List.rdropWhile_eq_nil_iff.mp hnil c List.mem_cons_self
  rw [h c rfl] at hspace
  cases hspace

/-! ## Escaping -/

/-- A character stands for itself, or a reference stands for it. -/
theorem escape_cases (c : Char) :
    escape c = [c] ∨ isSpace c = false ∧ ∃ name, escape c = '&' :: (name ++ [';']) := by
  rw [escape.eq_def]
  split
  · exact .inr ⟨by decide, ['l', 't'], rfl⟩
  · exact .inr ⟨by decide, ['g', 't'], rfl⟩
  · exact .inr ⟨by decide, ['a', 'm', 'p'], rfl⟩
  · exact .inl rfl

theorem ne_of_mem_escape {c d : Char} (h : d ∈ escape c) : d ≠ '<' := by
  rintro rfl
  unfold escape at h
  split at h
  · exact absurd h (by decide)
  · exact absurd h (by decide)
  · exact absurd h (by decide)
  · next hopening _ _ => exact hopening (List.mem_singleton.mp h).symm

theorem unescape?_escape (cs : List Char) : unescape? (cs.flatMap escape) = some cs := by
  induction cs with
  | nil => rfl
  | cons c cs ih =>
      rw [unescape?] at ih
      rw [unescape?, List.flatMap_cons, escape.eq_def]
      split
      · simp [unescapeFrom?, resolve?, ih]
      · simp [unescapeFrom?, resolve?, ih]
      · simp [unescapeFrom?, resolve?, ih]
      · next hopening hclosing hampersand => simp [unescapeFrom?, ih]

/-- White space stands for itself, and all else for texts that do not start with any. -/
def KeepsSpace (f : Char → List Char) : Prop :=
  ∀ c, isSpace c = true ∧ f c = [c] ∨
    isSpace c = false ∧ ∃ d ds, f c = d :: ds ∧ isSpace d = false

theorem dropWhile_flatMap {f : Char → List Char} (hf : KeepsSpace f) (cs : List Char) :
    (cs.flatMap f).dropWhile isSpace = (cs.dropWhile isSpace).flatMap f := by
  induction cs with
  | nil => rfl
  | cons c cs ih =>
      rcases hf c with ⟨hspace, hc⟩ | ⟨hspace, d, ds, hc, hd⟩
      · simp [hspace, hc, ih]
      · simp [hspace, hc, hd]

theorem keepsSpace_escape : KeepsSpace escape := by
  intro c
  rcases escape_cases c with hc | ⟨hspace, name, hc⟩
  · cases hspace : isSpace c with
    | true => exact .inl ⟨rfl, hc⟩
    | false => exact .inr ⟨rfl, c, [], hc, hspace⟩
  · exact .inr ⟨hspace, '&', name ++ [';'], hc, by decide⟩

theorem keepsSpace_reverse_escape : KeepsSpace fun c => (escape c).reverse := by
  intro c
  rcases escape_cases c with hc | ⟨hspace, name, hc⟩
  · cases hspace : isSpace c with
    | true => exact .inl ⟨rfl, by simp [hc]⟩
    | false => exact .inr ⟨rfl, c, [], by simp [hc], hspace⟩
  · exact .inr ⟨hspace, ';', (('&' :: name).reverse), by simp [hc], by decide⟩

/-- Trimming an escaped text trims the text. -/
theorem trimEnds_escape (cs : List Char) :
    trimEnds (cs.flatMap escape) = (trimEnds cs).flatMap escape := by
  have hfront : trimFront (cs.flatMap escape) = (trimFront cs).flatMap escape :=
    dropWhile_flatMap keepsSpace_escape cs
  have hback := dropWhile_flatMap keepsSpace_reverse_escape (trimFront cs).reverse
  rw [trimEnds, hfront, trimBack, List.reverse_flatMap, Function.comp_def, hback,
    List.reverse_flatMap]
  simp [trimEnds, trimBack, Function.comp_def]

/-! ## Tokens of elements -/

/-- A name of letters and digits. -/
def IsName (name : String) : Prop :=
  name.toList ≠ [] ∧ ∀ c ∈ name.toList, c.isAlphanum = true

instance (name : String) : Decidable (IsName name) :=
  decidable_of_iff (name.toList ≠ [] ∧ name.toList.all Char.isAlphanum = true) <|
    and_congr_right fun _ => List.all_eq_true

/-- The tokens of an escaped text. -/
def textTokens (raw : List Char) : List Token :=
  if raw.isEmpty then [] else [.characters raw]

/-- The tokens of an element with a given content. -/
def elementTokens (name : String) (content : List Token) : List Token :=
  .opening ⟨name.toList, []⟩ :: (content ++ [.closing])

/-- Characters are scanned as the given tokens in front of any rest that may follow them, whatever
elements are open. -/
def Scans (follows : List Char → Prop) (cs : List Char) (tokens : List Token) : Prop :=
  ∀ opened rest fuel, follows rest → (cs ++ rest).length ≤ fuel → ∃ left, rest.length ≤ left ∧
    scanFrom fuel opened (cs ++ rest) = tokens ++ scanFrom left opened rest

/-- The rest starts with an end tag. -/
def Closes (rest : List Char) : Prop :=
  ∃ behind, rest = '<' :: '/' :: behind

theorem Scans.nil (follows : List Char → Prop) : Scans follows [] [] :=
  fun _ _ fuel _ hfuel => ⟨fuel, hfuel, rfl⟩

theorem Scans.append {follows : List Char → Prop} {cs ds : List Char} {tokens others : List Token}
    (h : Scans (fun _ => True) cs tokens) (hds : Scans follows ds others) :
    Scans follows (cs ++ ds) (tokens ++ others) := by
  intro opened rest fuel hrest hfuel
  rw [List.append_assoc] at hfuel ⊢
  obtain ⟨between, hbetween, hscan⟩ := h opened (ds ++ rest) fuel trivial hfuel
  obtain ⟨left, hleft, hscan'⟩ := hds opened rest between hrest hbetween
  exact ⟨left, hleft, by rw [hscan, hscan', List.append_assoc]⟩

theorem Scans.imp {follows follows' : List Char → Prop} {cs : List Char} {tokens : List Token}
    (h : Scans follows cs tokens) (himp : ∀ rest, follows' rest → follows rest) :
    Scans follows' cs tokens :=
  fun opened rest fuel hrest => h opened rest fuel (himp rest hrest)

/-- Nothing is scanned as nothing. -/
theorem Scans.eq_nil {tokens : List Token} (h : Scans (fun _ => True) [] tokens) : tokens = [] := by
  obtain ⟨left, -, hscan⟩ := h [] [] 0 trivial (Nat.le_refl 0)
  exact (List.append_eq_nil_iff.mp hscan.symm).1

theorem scanFrom_characters {fuel : Nat} {opened : List (List Char)} {c : Char} {cs : List Char}
    (hc : c ≠ '<') :
    scanFrom (fuel + 1) opened (c :: cs) =
      .characters ((c :: cs).takeWhile (· ≠ '<')) ::
        scanFrom fuel opened ((c :: cs).dropWhile (· ≠ '<')) := by
  simp [scanFrom, hc]

theorem scanFrom_markup {fuel : Nat} {opened others : List (List Char)} {cs rest : List Char}
    {tokens : List Token} (h : scanMarkup? opened cs = some (tokens, others, rest)) :
    scanFrom (fuel + 1) opened ('<' :: cs) = tokens ++ scanFrom fuel others rest := by
  simp [scanFrom, h]

/-- An escaped text goes on to the next bracket. -/
theorem scans_text {raw : List Char} (h : ∀ c ∈ raw, c ≠ '<') :
    Scans Closes raw (textTokens raw) := by
  rintro opened rest fuel ⟨behind, rfl⟩ hfuel
  cases raw with
  | nil => exact ⟨fuel, hfuel, rfl⟩
  | cons c raw =>
      obtain ⟨fuel, rfl⟩ : ∃ n, fuel = n + 1 := ⟨fuel - 1, by simp at hfuel; omega⟩
      have htake : (c :: raw ++ '<' :: '/' :: behind).takeWhile (· ≠ '<') = c :: raw := by
        rw [List.takeWhile_append_of_pos (by simpa using h)]
        simp
      have hdrop : (c :: raw ++ '<' :: '/' :: behind).dropWhile (· ≠ '<') =
          '<' :: '/' :: behind := by
        rw [List.dropWhile_append_of_pos (by simpa using h)]
        simp
      refine ⟨fuel, by simp at hfuel ⊢; omega, ?_⟩
      rw [List.cons_append, scanFrom_characters (h c List.mem_cons_self), ← List.cons_append,
        htake, hdrop]
      rfl

/-! ## Tags -/

theorem ne_of_isAlphanum {c d : Char} (hc : c.isAlphanum = true) (hd : d.isAlphanum = false) :
    c ≠ d := by
  rintro rfl
  rw [hc] at hd
  cases hd

theorem isSpace_of_isAlphanum {c : Char} (hc : c.isAlphanum = true) : isSpace c = false := by
  simp [isSpace, ne_of_isAlphanum hc (d := ' ') (by decide),
    ne_of_isAlphanum hc (d := '\r') (by decide), ne_of_isAlphanum hc (d := '\n') (by decide),
    ne_of_isAlphanum hc (d := '\t') (by decide)]

theorem splitTag?_name {name : List Char} (h : ∀ c ∈ name, c.isAlphanum = true)
    (slash rest : List Char) (hslash : slash = [] ∨ slash = ['/']) :
    splitTag? none (name ++ slash ++ '>' :: rest) = some (name ++ slash, rest) := by
  induction name with
  | nil => rcases hslash with rfl | rfl <;> rfl
  | cons c name ih =>
      have hc := h c List.mem_cons_self
      have hclosing := ne_of_isAlphanum hc (d := '>') (by decide)
      have hsingle := ne_of_isAlphanum hc (d := '\'') (by decide)
      have hdouble := ne_of_isAlphanum hc (d := '"') (by decide)
      have hrest := ih fun d hd => h d (List.mem_cons_of_mem _ hd)
      simp only [List.cons_append, splitTag?, hsingle, hdouble, or_self, if_false, hrest,
        Option.map_some]

theorem splitAtMark?_name {name : List Char} (h : ∀ c ∈ name, c.isAlphanum = true)
    (rest : List Char) : splitAtMark? ['>'] (name ++ '>' :: rest) = some (name, rest) := by
  induction name with
  | nil => simp [splitAtMark?]
  | cons c name ih =>
      have hclosing := (ne_of_isAlphanum (h c List.mem_cons_self) (d := '>') (by decide)).symm
      have hrest := ih fun d hd => h d (List.mem_cons_of_mem _ hd)
      simp [splitAtMark?, hrest, hclosing]

theorem takeWhile_name {name : List Char} (h : ∀ c ∈ name, c.isAlphanum = true) :
    name.takeWhile (!isSpace ·) = name ∧ name.dropWhile (!isSpace ·) = [] := by
  have hall : ∀ c ∈ name, (!isSpace c) = true :=
    fun c hc => by simp [isSpace_of_isAlphanum (h c hc)]
  exact ⟨List.takeWhile_eq_self_iff.mpr hall, List.dropWhile_eq_nil_iff.mpr hall⟩

theorem tagOf_name {name : List Char} (h : ∀ c ∈ name, c.isAlphanum = true) :
    tagOf name = (⟨name, []⟩, false) := by
  have hlast : name.getLast? ≠ some '/' := by
    intro hlast
    exact ne_of_isAlphanum (h '/' (List.mem_of_getLast? hlast)) (by decide) rfl
  obtain ⟨htake, hdrop⟩ := takeWhile_name h
  simp [tagOf, hlast, htake, hdrop]

theorem tagOf_name_slash {name : List Char} (h : ∀ c ∈ name, c.isAlphanum = true) :
    tagOf (name ++ ['/']) = (⟨name, []⟩, true) := by
  obtain ⟨htake, hdrop⟩ := takeWhile_name h
  simp [tagOf, htake, hdrop]

theorem closingName_name {name : List Char} (h : ∀ c ∈ name, c.isAlphanum = true) :
    closingName name = name := by
  have hlast : trimBack name = name := by
    refine trimBack_eq_self_iff.mpr ?_
    intro c hc
    exact isSpace_of_isAlphanum (h c (List.mem_of_getLast? hc))
  rw [closingName]
  split
  · rfl
  · exact hlast

/-- Behind an opening bracket, what starts with a letter or digit is a start tag. -/
theorem scanMarkup?_start {c : Char} (hc : c.isAlphanum = true) (opened : List (List Char))
    {cs inside rest : List Char} (hsplit : splitTag? none (c :: cs) = some (inside, rest)) :
    scanMarkup? opened (c :: cs) =
      if (tagOf inside).2 then some ([.opening (tagOf inside).1, .closing], opened, rest)
      else some ([.opening (tagOf inside).1], (tagOf inside).1.name :: opened, rest) := by
  have hbang := ne_of_isAlphanum hc (d := '!') (by decide)
  have hquestion := ne_of_isAlphanum hc (d := '?') (by decide)
  have hslash := ne_of_isAlphanum hc (d := '/') (by decide)
  simp [scanMarkup?, hbang, hquestion, hslash, hsplit]

theorem scanMarkup?_opening {name : String} (h : IsName name) (opened : List (List Char))
    (rest : List Char) :
    scanMarkup? opened (name.toList ++ '>' :: rest) =
      some ([.opening ⟨name.toList, []⟩], name.toList :: opened, rest) := by
  obtain ⟨hne, hall⟩ := h
  obtain ⟨c, cs, hname⟩ := List.exists_cons_of_ne_nil hne
  have hsplit := splitTag?_name hall [] rest (.inl rfl)
  rw [List.append_nil] at hsplit
  have htag := tagOf_name hall
  rw [hname] at hsplit hall htag ⊢
  rw [List.cons_append] at hsplit ⊢
  rw [scanMarkup?_start (hall c List.mem_cons_self) opened hsplit, htag]
  rfl

theorem scanMarkup?_empty {name : String} (h : IsName name) (opened : List (List Char))
    (rest : List Char) :
    scanMarkup? opened (name.toList ++ '/' :: '>' :: rest) =
      some ([.opening ⟨name.toList, []⟩, .closing], opened, rest) := by
  obtain ⟨hne, hall⟩ := h
  obtain ⟨c, cs, hname⟩ := List.exists_cons_of_ne_nil hne
  have hsplit := splitTag?_name hall ['/'] rest (.inr rfl)
  rw [List.append_assoc, List.singleton_append] at hsplit
  have htag := tagOf_name_slash hall
  rw [hname] at hsplit hall htag ⊢
  rw [List.cons_append] at hsplit ⊢
  rw [scanMarkup?_start (hall c List.mem_cons_self) opened hsplit, htag]
  rfl

theorem scanMarkup?_closing {name : String} (h : IsName name) (opened : List (List Char))
    (rest : List Char) :
    scanMarkup? (name.toList :: opened) ('/' :: (name.toList ++ '>' :: rest)) =
      some ([.closing], opened, rest) := by
  simp [scanMarkup?, splitAtMark?_name h.2, closingName_name h.2]

/-! ## Elements -/

theorem element_eq (name : String) {content : List Char} (h : content ≠ []) (rest : List Char) :
    element name content ++ rest =
      '<' :: (name.toList ++ '>' :: (content ++ '<' :: '/' :: (name.toList ++ '>' :: rest))) := by
  simp [element, h]

/-- An element is scanned as its start tag, its content and its end tag. -/
theorem scans_element {name : String} (hname : IsName name) {content : List Char}
    {tokens : List Token} (h : Scans Closes content tokens) (hempty : content = [] → tokens = []) :
    Scans (fun _ => True) (element name content) (elementTokens name tokens) := by
  rintro opened rest fuel - hfuel
  by_cases hcontent : content = []
  · have htokens := hempty hcontent
    have helement : element name content ++ rest =
        '<' :: (name.toList ++ '/' :: '>' :: rest) := by
      simp [element, hcontent]
    rw [helement] at hfuel ⊢
    obtain ⟨fuel, rfl⟩ : ∃ n, fuel = n + 1 := ⟨fuel - 1, by simp at hfuel; omega⟩
    refine ⟨fuel, by simp at hfuel; omega, ?_⟩
    rw [scanFrom_markup (scanMarkup?_empty hname opened rest), htokens]
    rfl
  · rw [element_eq name hcontent] at hfuel ⊢
    obtain ⟨fuel, rfl⟩ : ∃ n, fuel = n + 1 := ⟨fuel - 1, by simp at hfuel; omega⟩
    obtain ⟨between, hbetween, hscan⟩ := h (name.toList :: opened)
      ('<' :: '/' :: (name.toList ++ '>' :: rest)) fuel ⟨_, rfl⟩ (by simp at hfuel ⊢; omega)
    obtain ⟨left, rfl⟩ : ∃ n, between = n + 1 := ⟨between - 1, by simp at hbetween; omega⟩
    refine ⟨left, by simp at hbetween; omega, ?_⟩
    rw [scanFrom_markup (scanMarkup?_opening hname opened _), hscan,
      scanFrom_markup (scanMarkup?_closing hname opened rest)]
    simp [elementTokens]

/-- A text of one element has the tokens of that element. -/
theorem scan_element {name : String} (hname : IsName name) {content : List Char}
    {tokens : List Token} (h : Scans Closes content tokens) (hempty : content = [] → tokens = []) :
    scan (String.ofList (element name content)) = elementTokens name tokens := by
  have hmark : Utf8.dropMark (element name content) = element name content := by
    unfold element
    split <;> rfl
  obtain ⟨left, -, hscan⟩ := scans_element hname h hempty [] [] (element name content).length
    trivial (by simp)
  have hrest : scanFrom left [] [] = [] := by
    cases left <;> rfl
  rw [List.append_nil, hrest, List.append_nil] at hscan
  simpa [scan, hmark] using hscan

/-! ## Places in front of tokens -/

namespace Cursor

/-- The place in front of tokens, inside a number of elements without declarations. -/
def inFront (depth : Nat) (tokens : List Token) : Cursor :=
  start true ⟨depth, []⟩ tokens

theorem inFront_opening (depth : Nat) (name : List Char) (tokens : List Token) :
    inFront depth (.opening ⟨name, []⟩ :: tokens) =
      ⟨some (.opening ⟨name, []⟩), tokens, ⟨depth + 1, []⟩⟩ :=
  rfl

theorem inFront_closing (depth : Nat) (tokens : List Token) :
    inFront depth (.closing :: tokens) = ⟨some .closing, tokens, ⟨depth, []⟩⟩ :=
  rfl

/-- White space alone is no text. -/
theorem inFront_textTokens {raw : List Char} (h : trimFront raw = []) (depth : Nat)
    (tokens : List Token) : inFront depth (textTokens raw ++ tokens) = inFront depth tokens := by
  cases raw with
  | nil => rfl
  | cons c raw => simp [inFront, textTokens, start, h]

theorem next?_opening (depth : Nat) (name : List Char) (tokens : List Token) :
    (inFront depth (.opening ⟨name, []⟩ :: tokens)).next? =
      some (.opened ⟨name, []⟩, inFront (depth + 1) tokens) := by
  rw [inFront_opening, next?.eq_def]
  rfl

theorem next?_closing (depth : Nat) (tokens : List Token) :
    (inFront (depth + 1) (.closing :: tokens)).next? = some (.closed, inFront depth tokens) := by
  rw [inFront_closing, next?.eq_def]
  rfl

theorem readRuns?_closing (depth : Nat) (tokens : List Token) :
    (inFront depth (.closing :: tokens)).readRuns? =
      some ([], inFront depth (.closing :: tokens)) := by
  rw [inFront_closing, readRuns?.eq_def]

/-- A text is read without the white space at its ends. -/
theorem next?_textTokens {raw cs : List Char} (h : trimFront raw ≠ [])
    (hcs : unescape? (trimEnds raw) = some cs) (depth : Nat) (tokens : List Token) :
    (inFront depth (textTokens raw ++ .closing :: tokens)).next? =
      some (.text cs, inFront depth (.closing :: tokens)) := by
  let place : Cursor := ⟨some (.characters (trimFront raw)), .closing :: tokens, ⟨depth, []⟩⟩
  have hplace : inFront depth (textTokens raw ++ .closing :: tokens) = place := by
    cases raw with
    | nil => exact absurd rfl h
    | cons c raw => simp [inFront, textTokens, start, place]
  have hadvance : place.advance = inFront depth (.closing :: tokens) := rfl
  have hrun : (inFront depth (.closing :: tokens)).atRun = false := rfl
  have hruns : place.readRuns? = some (cs, inFront depth (.closing :: tokens)) := by
    rw [trimEnds] at hcs
    rw [readRuns?.eq_def]
    simp [place, hadvance, hrun, hcs, readRuns?_closing]
  have hback : (trimBack (trimFront raw)).isEmpty = false := by
    simpa using trimBack_ne_nil h (head?_trimFront raw)
  rw [hplace, next?.eq_def]
  simp [place, hadvance, hrun, hback, hruns]

end Cursor

end TopicBroker.Xml
