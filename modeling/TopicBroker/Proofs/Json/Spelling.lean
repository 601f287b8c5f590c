import TopicBroker.Proofs.Json.Token

/-! # The texts of a JSON value

A value has many texts. They differ in how its numbers and its quoted texts are written, and in the
white space around its tokens, but not in the order of its parts. The reader finds the value of each
of its texts, and what it reads without a fault is one of the texts of what it finds. -/

namespace TopicBroker.Json

mutual

/-- The text is one of those of a value. White space may stand around every value and every name,
and in empty arrays and objects. -/
inductive Spells : Json → List Char → Prop where
  | token {json cs} : Token json cs → Spells json cs
  | emptyArray {space} : Spaces space → Spells (.array []) ('[' :: (space ++ [']']))
  | array {items cs} : SpellsItems items cs → Spells (.array items) ('[' :: (cs ++ [']']))
  | emptyObject {space} : Spaces space → Spells (.object []) ('\x7b' :: (space ++ ['\x7d']))
  | object {members cs} : SpellsMembers members cs →
      Spells (.object members) ('\x7b' :: (cs ++ ['\x7d']))
  | padded {before json cs after} : Spaces before → Spells json cs → Spaces after →
      Spells json (before ++ (cs ++ after))

inductive SpellsItems : List Json → List Char → Prop where
  | last {json cs} : Spells json cs → SpellsItems [json] cs
  | more {json cs items rest} : Spells json cs → SpellsItems items rest →
      SpellsItems (json :: items) (cs ++ ',' :: rest)

inductive SpellsMembers : List (Option String × Json) → List Char → Prop where
  | last {name key json cs} : Spells (.string name) key → Spells json cs →
      SpellsMembers [(name, json)] (key ++ ':' :: cs)
  | more {name key json cs members rest} : Spells (.string name) key → Spells json cs →
      SpellsMembers members rest →
      SpellsMembers ((name, json) :: members) (key ++ ':' :: (cs ++ ',' :: rest))

end

/-! ## White space -/

theorem skipSpace_append {space : List Char} (h : Spaces space) (cs : List Char) :
    skipSpace (space ++ cs) = skipSpace cs :=
  List.dropWhile_append_of_pos h

theorem skipSpace_cons {c : Char} (h : isSpace c = false) (cs : List Char) :
    skipSpace (c :: cs) = c :: cs := by
  simp [skipSpace, h]

theorem exists_eq_append_skipSpace (cs : List Char) :
    ∃ space, Spaces space ∧ cs = space ++ skipSpace cs :=
  ⟨cs.takeWhile isSpace, fun _ => List.mem_takeWhile_imp, List.takeWhile_append_dropWhile.symm⟩

theorem skipSpace_idem (cs : List Char) : skipSpace (skipSpace cs) = skipSpace cs := by
  obtain ⟨space, hspace, hcs⟩ := exists_eq_append_skipSpace cs
  exact (skipSpace_append hspace (skipSpace cs)).symm.trans (congrArg skipSpace hcs.symm)

theorem readValue_skipSpace (fuel : Nat) (cs : List Char) :
    readValue fuel (skipSpace cs) = readValue fuel cs := by
  cases fuel with
  | zero => rfl
  | succ fuel => rw [readValue, readValue, skipSpace_idem]

theorem readValue_space {space : List Char} (h : Spaces space) (fuel : Nat) (cs : List Char) :
    readValue fuel (space ++ cs) = readValue fuel cs := by
  rw [← readValue_skipSpace, skipSpace_append h, readValue_skipSpace]

theorem readItems_skipSpace (fuel : Nat) (cs : List Char) :
    readItems fuel (skipSpace cs) = readItems fuel cs := by
  cases fuel with
  | zero => rfl
  | succ fuel => rw [readItems, readItems, readValue_skipSpace]

theorem readMembers_skipSpace (fuel : Nat) (cs : List Char) :
    readMembers fuel (skipSpace cs) = readMembers fuel cs := by
  cases fuel with
  | zero => rfl
  | succ fuel => rw [readMembers, readMembers, skipSpace_idem]

/-! ## Values are read from their texts -/

theorem Spells.opens : ∀ {json cs}, Spells json cs →
    ∃ c, Opens c ∧ ∀ rest, ∃ behind, skipSpace (cs ++ rest) = c :: behind
  | _, _, .token h => by
      obtain ⟨c, part, rfl, hc⟩ := h.starts
      exact ⟨c, ⟨hc.marks.1, hc.marks.2.2.1⟩, fun rest => ⟨_, skipSpace_cons hc.marks.1 _⟩⟩
  | _, _, .emptyArray _ | _, _, .array _ => by
      exact ⟨'[', ⟨by decide, by decide⟩, fun rest => ⟨_, skipSpace_cons (by decide) _⟩⟩
  | _, _, .emptyObject _ | _, _, .object _ => by
      exact ⟨'\x7b', ⟨by decide, by decide⟩, fun rest => ⟨_, skipSpace_cons (by decide) _⟩⟩
  | _, _, .padded hbefore h _ => by
      obtain ⟨c, hc, hopens⟩ := h.opens
      refine ⟨c, hc, fun rest => ?_⟩
      rw [List.append_assoc, skipSpace_append hbefore, List.append_assoc]
      exact hopens _

theorem SpellsItems.opens {items : List Json} {cs : List Char} (h : SpellsItems items cs) :
    ∃ c, Opens c ∧ ∀ rest, ∃ behind, skipSpace (cs ++ rest) = c :: behind := by
  cases h with
  | last h => exact h.opens
  | more h _ =>
      obtain ⟨c, hc, hopens⟩ := h.opens
      refine ⟨c, hc, fun rest => ?_⟩
      rw [List.append_assoc]
      exact hopens _

/-- A name is quoted, with white space around it. -/
theorem Spells.quoted : ∀ {json cs}, Spells json cs → ∀ {name}, json = .string name →
    ∃ before body after, Spaces before ∧ Spaces after ∧ cs = before ++ '"' :: (body ++ after) ∧
      ∀ other, readString? (body ++ other) = some (name, other)
  | _, cs, .token h, name, heq => by
      subst heq
      have hread := h.1
      unfold readScalar at hread
      split at hread
      any_goals cases hread
      · next body =>
          cases hstring : readString? body with
          | none => simp [hstring] at hread
          | some read =>
              obtain ⟨s, left⟩ := read
              rw [hstring] at hread
              cases hread
              obtain ⟨part, hpart, hswap⟩ := part_readString? hstring
              exact ⟨[], body, [], spaces_nil, spaces_nil, by simp, by simpa [hpart] using hswap⟩
      · cases hnumber : readNumber? cs with
        | none => simp [hnumber] at hread
        | some read => simp [hnumber] at hread
  | _, _, @Spells.padded front _ _ back hbefore h hafter, name, heq => by
      obtain ⟨before, body, after, hspace, hspace', rfl, hswap⟩ := h.quoted heq
      refine ⟨front ++ before, body, after ++ back, ?_, ?_, by simp, hswap⟩
      · exact fun c hc => (List.mem_append.mp hc).elim (hbefore c) (hspace c)
      · exact fun c hc => (List.mem_append.mp hc).elim (hspace' c) (hafter c)

theorem skipSpace_name {name : Option String} {key : List Char} (h : Spells (.string name) key) :
    ∃ body after, Spaces after ∧ (∀ other, readString? (body ++ other) = some (name, other)) ∧
      ∀ rest, skipSpace (key ++ rest) = '"' :: (body ++ (after ++ rest)) := by
  obtain ⟨before, body, after, hbefore, hafter, rfl, hswap⟩ := h.quoted rfl
  refine ⟨body, after, hafter, hswap, fun rest => ?_⟩
  rw [List.append_assoc, skipSpace_append hbefore, List.cons_append, List.append_assoc,
    skipSpace_cons (by decide)]

theorem SpellsMembers.opens {members : List (Option String × Json)} {cs : List Char}
    (h : SpellsMembers members cs) (rest : List Char) :
    ∃ behind, skipSpace (cs ++ rest) = '"' :: behind := by
  cases h with
  | last hkey _ | more hkey _ _ =>
      obtain ⟨_, _, -, -, hskip⟩ := skipSpace_name hkey
      rw [List.append_assoc]
      exact ⟨_, hskip _⟩

/-! ### Steps of the reader -/

section

variable {fuel : Nat} {cs behind rest : List Char} {json : Json}

theorem readValue_emptyArray (h : skipSpace cs = ']' :: rest) :
    readValue (fuel + 1) ('[' :: cs) = (.array [], rest) := by
  rw [readValue, skipSpace_cons (by decide)]
  simp only [h]

theorem readValue_items {c : Char} (hc : Opens c) (h : skipSpace cs = c :: behind) :
    readValue (fuel + 1) ('[' :: cs) = (readItems fuel cs).map .array id := by
  rw [readValue, skipSpace_cons (by decide), ← readItems_skipSpace]
  simp only [h]
  split
  · next heq => exact absurd (List.cons.inj heq).1 hc.2
  · rfl

theorem readValue_emptyObject (h : skipSpace cs = '\x7d' :: rest) :
    readValue (fuel + 1) ('\x7b' :: cs) = (.object [], rest) := by
  rw [readValue, skipSpace_cons (by decide)]
  simp only [h]

theorem readValue_members (h : skipSpace cs = '"' :: behind) :
    readValue (fuel + 1) ('\x7b' :: cs) = (readMembers fuel cs).map .object id := by
  rw [readValue, skipSpace_cons (by decide), ← readMembers_skipSpace]
  simp only [h]
  rfl

theorem readItems_of_last (hread : readValue fuel cs = (json, behind))
    (h : skipSpace behind = ']' :: rest) : readItems (fuel + 1) cs = ([json], rest) := by
  rw [readItems, hread]
  simp only [h]

theorem readItems_of_more (hread : readValue fuel cs = (json, behind))
    (h : skipSpace behind = ',' :: rest) :
    readItems (fuel + 1) cs = (readItems fuel rest).map (json :: ·) id := by
  rw [readItems, hread]
  simp only [h]

variable {name : Option String} {key : List Char}

theorem readMembers_of_last (hkey : Spells (.string name) key)
    (hread : readValue fuel cs = (json, behind)) (h : skipSpace behind = '\x7d' :: rest) :
    readMembers (fuel + 1) (key ++ ':' :: cs) = ([(name, json)], rest) := by
  obtain ⟨body, after, hafter, hswap, hskip⟩ := skipSpace_name hkey
  have hcolon : skipSpace (after ++ ':' :: cs) = ':' :: cs := by
    rw [skipSpace_append hafter, skipSpace_cons (by decide)]
  simp only [readMembers, hskip, hswap, hcolon, hread, h]

theorem readMembers_of_more (hkey : Spells (.string name) key)
    (hread : readValue fuel cs = (json, behind)) (h : skipSpace behind = ',' :: rest) :
    readMembers (fuel + 1) (key ++ ':' :: cs) =
      (readMembers fuel rest).map ((name, json) :: ·) id := by
  obtain ⟨body, after, hafter, hswap, hskip⟩ := skipSpace_name hkey
  have hcolon : skipSpace (after ++ ':' :: cs) = ':' :: cs := by
    rw [skipSpace_append hafter, skipSpace_cons (by decide)]
  simp only [readMembers, hskip, hswap, hcolon, hread, h]

end

/-! ### Whole texts -/

theorem skipSpace_spaces_cons {space : List Char} (hspace : Spaces space) {c : Char}
    (hc : isSpace c = false) (rest : List Char) : skipSpace (space ++ c :: rest) = c :: rest := by
  rw [skipSpace_append hspace, skipSpace_cons hc]

mutual

/-- A value is read from each of its texts. White space behind it may be left over. -/
theorem readValue_of_spells : ∀ {json cs}, Spells json cs → ∀ fuel, 2 * cs.length ≤ fuel →
    ∀ rest, Ends rest → ∃ space, Spaces space ∧ readValue fuel (cs ++ rest) = (json, space ++ rest)
  | _, _, .token h, fuel, hfuel, rest, hrest => by
      obtain ⟨c, part, rfl, hc⟩ := h.starts
      obtain ⟨fuel, rfl⟩ : ∃ k, fuel = k + 1 := ⟨fuel - 1, by simp at hfuel; omega⟩
      obtain ⟨hspace, hbracket, -, hbrace, -⟩ := hc.marks
      refine ⟨[], spaces_nil, ?_⟩
      rw [List.cons_append, readValue_of_scalar hspace hbracket hbrace, ← List.cons_append]
      exact readScalar_of_token h hrest
  | _, _, .emptyArray h, fuel, hfuel, rest, _ => by
      obtain ⟨fuel, rfl⟩ : ∃ k, fuel = k + 1 := ⟨fuel - 1, by simp at hfuel; omega⟩
      refine ⟨[], spaces_nil, ?_⟩
      rw [List.cons_append, List.append_assoc]
      exact readValue_emptyArray (skipSpace_spaces_cons h (by decide) rest)
  | _, _, .array h, fuel, hfuel, rest, _ => by
      obtain ⟨fuel, rfl⟩ : ∃ k, fuel = k + 1 := ⟨fuel - 1, by simp at hfuel; omega⟩
      simp only [List.length_cons, List.length_append, List.length_nil] at hfuel
      obtain ⟨c, hc, hopens⟩ := h.opens
      obtain ⟨behind, hbehind⟩ := hopens (']' :: rest)
      refine ⟨[], spaces_nil, ?_⟩
      rw [List.cons_append, List.append_assoc, List.singleton_append, readValue_items hc hbehind,
        readItems_of_spells h fuel (by omega) rest]
      rfl
  | _, _, .emptyObject h, fuel, hfuel, rest, _ => by
      obtain ⟨fuel, rfl⟩ : ∃ k, fuel = k + 1 := ⟨fuel - 1, by simp at hfuel; omega⟩
      refine ⟨[], spaces_nil, ?_⟩
      rw [List.cons_append, List.append_assoc]
      exact readValue_emptyObject (skipSpace_spaces_cons h (by decide) rest)
  | _, _, .object h, fuel, hfuel, rest, _ => by
      obtain ⟨fuel, rfl⟩ : ∃ k, fuel = k + 1 := ⟨fuel - 1, by simp at hfuel; omega⟩
      simp only [List.length_cons, List.length_append, List.length_nil] at hfuel
      obtain ⟨behind, hbehind⟩ := h.opens ('\x7d' :: rest)
      refine ⟨[], spaces_nil, ?_⟩
      rw [List.cons_append, List.append_assoc, List.singleton_append, readValue_members hbehind,
        readMembers_of_spells h fuel (by omega) rest]
      rfl
  | _, _, .padded hbefore h hafter, fuel, hfuel, rest, hrest => by
      simp only [List.length_append] at hfuel
      obtain ⟨space, hspace, hread⟩ :=
        readValue_of_spells h fuel (by omega) _ (Ends.of_spaces hafter hrest)
      refine ⟨space ++ _, fun c hc => (List.mem_append.mp hc).elim (hspace c) (hafter c), ?_⟩
      rw [List.append_assoc, readValue_space hbefore, List.append_assoc, hread, List.append_assoc]

theorem readItems_of_spells : ∀ {items cs}, SpellsItems items cs → ∀ fuel, 2 * cs.length < fuel →
    ∀ rest, readItems fuel (cs ++ ']' :: rest) = (items, rest)
  | _, _, .last h, fuel, hfuel, rest => by
      obtain ⟨fuel, rfl⟩ : ∃ k, fuel = k + 1 := ⟨fuel - 1, by omega⟩
      obtain ⟨space, hspace, hread⟩ :=
        readValue_of_spells h fuel (by omega) (']' :: rest) (by simp [Ends])
      exact readItems_of_last hread (skipSpace_spaces_cons hspace (by decide) rest)
  | _, _, .more h hmore, fuel, hfuel, rest => by
      obtain ⟨fuel, rfl⟩ : ∃ k, fuel = k + 1 := ⟨fuel - 1, by omega⟩
      simp only [List.length_append, List.length_cons] at hfuel
      obtain ⟨space, hspace, hread⟩ :=
        readValue_of_spells h fuel (by omega) (',' :: _) (by simp [Ends])
      rw [List.append_assoc, List.cons_append,
        readItems_of_more hread (skipSpace_spaces_cons hspace (by decide) _),
        readItems_of_spells hmore fuel (by omega) rest]
      rfl

theorem readMembers_of_spells : ∀ {members cs}, SpellsMembers members cs →
    ∀ fuel, 2 * cs.length < fuel → ∀ rest, readMembers fuel (cs ++ '\x7d' :: rest) = (members, rest)
  | _, _, .last hkey h, fuel, hfuel, rest => by
      obtain ⟨fuel, rfl⟩ : ∃ k, fuel = k + 1 := ⟨fuel - 1, by omega⟩
      simp only [List.length_append, List.length_cons] at hfuel
      obtain ⟨space, hspace, hread⟩ :=
        readValue_of_spells h fuel (by omega) ('\x7d' :: rest) (by simp [Ends])
      rw [List.append_assoc, List.cons_append]
      exact readMembers_of_last hkey hread (skipSpace_spaces_cons hspace (by decide) rest)
  | _, _, .more hkey h hmore, fuel, hfuel, rest => by
      obtain ⟨fuel, rfl⟩ : ∃ k, fuel = k + 1 := ⟨fuel - 1, by omega⟩
      simp only [List.length_append, List.length_cons] at hfuel
      obtain ⟨space, hspace, hread⟩ :=
        readValue_of_spells h fuel (by omega) (',' :: _) (by simp [Ends])
      rw [List.append_assoc, List.cons_append, List.append_assoc, List.cons_append,
        readMembers_of_more hkey hread (skipSpace_spaces_cons hspace (by decide) _),
        readMembers_of_spells hmore fuel (by omega) rest]
      rfl

end

theorem read_of_spells {text : String} {json : Json} (h : Spells json text.toList) :
    read text = ⟨json, true⟩ := by
  obtain ⟨space, hspace, hread⟩ := readValue_of_spells h (2 * text.length + 2)
    (by simp [String.length_toList]) [] ends_nil
  rw [List.append_nil, List.append_nil] at hread
  simp only [read, hread]
  exact congrArg (Document.mk json) (List.all_eq_true.mpr hspace)

/-! ## What is read is spelled -/

theorem Spells.front {space cs : List Char} {json : Json} (hspace : Spaces space)
    (h : Spells json cs) : Spells json (space ++ cs) := by
  have hpadded := h.padded hspace spaces_nil
  rwa [List.append_nil] at hpadded

theorem Spells.back {space cs : List Char} {json : Json} (h : Spells json cs)
    (hspace : Spaces space) : Spells json (cs ++ space) :=
  h.padded spaces_nil hspace

theorem token_quoted {s : Option String} {body : List Char}
    (h : readString? body = some (s, [])) : Token (.string s) ('"' :: body) :=
  ⟨by simp [readScalar, h], nofun⟩

theorem exists_spaces_of_skipSpace {cs rest : List Char} (h : skipSpace cs = rest) :
    ∃ space, Spaces space ∧ cs = space ++ rest :=
  h ▸ exists_eq_append_skipSpace cs

theorem SpellsItems.front {space cs : List Char} {items : List Json} (hspace : Spaces space)
    (h : SpellsItems items cs) : SpellsItems items (space ++ cs) := by
  cases h with
  | last h => exact .last (h.front hspace)
  | more h hmore =>
      rw [← List.append_assoc]
      exact .more (h.front hspace) hmore

theorem SpellsMembers.front {space cs : List Char} {members : List (Option String × Json)}
    (hspace : Spaces space) (h : SpellsMembers members cs) :
    SpellsMembers members (space ++ cs) := by
  cases h with
  | last hkey h =>
      rw [← List.append_assoc]
      exact .last (hkey.front hspace) h
  | more hkey h hmore =>
      rw [← List.append_assoc]
      exact .more (hkey.front hspace) h hmore

mutual

/-- What is read without a fault is spelled by the text in front of the rest. -/
theorem spells_of_readValue (fuel : Nat) {cs rest : List Char} {json : Json}
    (h : readValue fuel cs = (json, rest)) (hwhole : json.isWhole = true) :
    ∃ part, cs = part ++ rest ∧ Spells json part := by
  match fuel with
  | 0 =>
      obtain ⟨rfl, -⟩ := Prod.mk.inj h
      cases hwhole
  | fuel + 1 =>
      rw [readValue] at h
      split at h
      · next behind hopen =>
          obtain ⟨space, hspace, rfl⟩ := exists_spaces_of_skipSpace hopen
          split at h
          · next left hclose =>
              obtain ⟨rfl, rfl⟩ := Prod.mk.inj h
              obtain ⟨inner, hinner, rfl⟩ := exists_spaces_of_skipSpace hclose
              exact ⟨_, by simp, (Spells.emptyArray hinner).front hspace⟩
          · obtain ⟨inner, hinner, hbehind⟩ := exists_eq_append_skipSpace behind
            cases hread : readItems fuel (skipSpace behind) with
            | mk items left =>
                rw [hread] at h
                obtain ⟨rfl, rfl⟩ := Prod.mk.inj h
                obtain ⟨part, hpart, hitems⟩ := spells_of_readItems fuel hread hwhole
                rw [hpart] at hbehind
                refine ⟨_, ?_, (Spells.array (hitems.front hinner)).front hspace⟩
                simp [hbehind]
      · next behind hopen =>
          obtain ⟨space, hspace, rfl⟩ := exists_spaces_of_skipSpace hopen
          split at h
          · next left hclose =>
              obtain ⟨rfl, rfl⟩ := Prod.mk.inj h
              obtain ⟨inner, hinner, rfl⟩ := exists_spaces_of_skipSpace hclose
              exact ⟨_, by simp, (Spells.emptyObject hinner).front hspace⟩
          · obtain ⟨inner, hinner, hbehind⟩ := exists_eq_append_skipSpace behind
            cases hread : readMembers fuel (skipSpace behind) with
            | mk members left =>
                rw [hread] at h
                obtain ⟨rfl, rfl⟩ := Prod.mk.inj h
                obtain ⟨part, hpart, hmembers⟩ := spells_of_readMembers fuel hread hwhole
                rw [hpart] at hbehind
                refine ⟨_, ?_, (Spells.object (hmembers.front hinner)).front hspace⟩
                simp [hbehind]
      · obtain ⟨space, hspace, hcs⟩ := exists_eq_append_skipSpace cs
        obtain ⟨part, hpart, htoken⟩ := exists_token_of_readScalar h (by rintro rfl; cases hwhole)
        refine ⟨space ++ part, ?_, (Spells.token htoken).front hspace⟩
        rw [List.append_assoc, ← hpart, ← hcs]

theorem spells_of_readItems (fuel : Nat) {cs rest : List Char} {items : List Json}
    (h : readItems fuel cs = (items, rest)) (hwhole : allWhole items = true) :
    ∃ part, cs = part ++ ']' :: rest ∧ SpellsItems items part := by
  match fuel with
  | 0 =>
      obtain ⟨rfl, -⟩ := Prod.mk.inj h
      cases hwhole
  | fuel + 1 =>
      rw [readItems] at h
      cases hread : readValue fuel cs with
      | mk json behind =>
          rw [hread] at h
          dsimp only at h
          split at h
          · next left hclose =>
              obtain ⟨rfl, rfl⟩ := Prod.mk.inj h
              obtain ⟨part, rfl, hjson⟩ :=
                spells_of_readValue fuel hread (Bool.and_eq_true_iff.mp hwhole).1
              obtain ⟨space, hspace, rfl⟩ := exists_spaces_of_skipSpace hclose
              exact ⟨part ++ space, by simp, .last (hjson.back hspace)⟩
          · next left hcomma =>
              cases hmore : readItems fuel left with
              | mk more final =>
                  rw [hmore] at h
                  obtain ⟨rfl, rfl⟩ := Prod.mk.inj h
                  obtain ⟨hfirst, hothers⟩ := Bool.and_eq_true_iff.mp hwhole
                  obtain ⟨part, rfl, hjson⟩ := spells_of_readValue fuel hread hfirst
                  obtain ⟨space, hspace, rfl⟩ := exists_spaces_of_skipSpace hcomma
                  obtain ⟨part', rfl, hitems⟩ := spells_of_readItems fuel hmore hothers
                  exact ⟨_, by simp, .more (hjson.back hspace) hitems⟩
          · obtain ⟨rfl, -⟩ := Prod.mk.inj h
            simp [allWhole, isWhole] at hwhole

theorem spells_of_readMembers (fuel : Nat) {cs rest : List Char}
    {members : List (Option String × Json)} (h : readMembers fuel cs = (members, rest))
    (hwhole : allMembersWhole members = true) :
    ∃ part, cs = part ++ '\x7d' :: rest ∧ SpellsMembers members part := by
  match fuel with
  | 0 =>
      obtain ⟨rfl, -⟩ := Prod.mk.inj h
      cases hwhole
  | fuel + 1 =>
      rw [readMembers] at h
      split at h
      case h_2 =>
        obtain ⟨rfl, -⟩ := Prod.mk.inj h
        cases hwhole
      next behind hquote =>
      split at h
      · obtain ⟨rfl, -⟩ := Prod.mk.inj h
        cases hwhole
      next name left hstring =>
      split at h
      case h_2 =>
        obtain ⟨rfl, -⟩ := Prod.mk.inj h
        cases hwhole
      next value hcolon =>
      obtain ⟨space, hspace, rfl⟩ := exists_spaces_of_skipSpace hquote
      obtain ⟨body, rfl, hswap⟩ := part_readString? hstring
      obtain ⟨gap, hgap, rfl⟩ := exists_spaces_of_skipSpace hcolon
      have hbody := hswap []
      rw [List.append_nil] at hbody
      have hkey := ((Spells.token (token_quoted hbody)).back hgap).front hspace
      cases hread : readValue fuel value with
      | mk json behind =>
          rw [hread] at h
          dsimp only at h
          split at h
          · next left hclose =>
              obtain ⟨rfl, rfl⟩ := Prod.mk.inj h
              obtain ⟨part, rfl, hjson⟩ :=
                spells_of_readValue fuel hread (Bool.and_eq_true_iff.mp hwhole).1
              obtain ⟨space, hspace, rfl⟩ := exists_spaces_of_skipSpace hclose
              exact ⟨_, by simp, .last hkey (hjson.back hspace)⟩
          · next left hcomma =>
              cases hmore : readMembers fuel left with
              | mk more final =>
                  rw [hmore] at h
                  obtain ⟨rfl, rfl⟩ := Prod.mk.inj h
                  obtain ⟨hfirst, hothers⟩ := Bool.and_eq_true_iff.mp hwhole
                  obtain ⟨part, rfl, hjson⟩ := spells_of_readValue fuel hread hfirst
                  obtain ⟨space, hspace, rfl⟩ := exists_spaces_of_skipSpace hcomma
                  obtain ⟨part', rfl, hmembers⟩ := spells_of_readMembers fuel hmore hothers
                  exact ⟨_, by simp, .more hkey (hjson.back hspace) hmembers⟩
          · obtain ⟨rfl, -⟩ := Prod.mk.inj h
            simp [allMembersWhole, isWhole] at hwhole

end

/-- A text that is read to its end without a fault spells the value that is read. -/
theorem spells_of_read {text : String} {json : Json} (h : read text = ⟨json, true⟩)
    (hwhole : json.isWhole = true) : Spells json text.toList := by
  cases hread : readValue (2 * text.length + 2) text.toList with
  | mk value rest =>
      simp only [read, hread, Document.mk.injEq] at h
      obtain ⟨rfl, hspace⟩ := h
      obtain ⟨part, htext, hspells⟩ := spells_of_readValue _ hread hwhole
      rw [htext]
      exact hspells.back (List.all_eq_true.mp hspace)

/-! ## Written texts -/

mutual

theorem IsPlain.isWhole : ∀ {json : Json}, json.IsPlain → json.isWhole = true
  | null, _ | bool _, _ | number _, _ | string _, _ => rfl
  | array _, h => AllPlain.allWhole h
  | object _, h => AllMembersPlain.allMembersWhole h

theorem AllPlain.allWhole : ∀ {items : List Json}, AllPlain items → allWhole items = true
  | [], _ => rfl
  | _ :: _, h => Bool.and_eq_true_iff.mpr ⟨h.1.isWhole, AllPlain.allWhole h.2⟩

theorem AllMembersPlain.allMembersWhole : ∀ {members : List (Option String × Json)},
    AllMembersPlain members → allMembersWhole members = true
  | [], _ => rfl
  | _ :: _, h => Bool.and_eq_true_iff.mpr ⟨h.2.1.isWhole, AllMembersPlain.allMembersWhole h.2.2⟩

end

/-- What a plain value is written as is one of its texts. -/
theorem spells_render {json : Json} (h : json.IsPlain) : Spells json json.render.toList :=
  spells_of_read (read_render h) h.isWhole

end TopicBroker.Json
