import TopicBroker.Xml.Event

/-! # Paths of elements

The path of an element tells the local names of the elements around it and its own, the innermost
first. A reader that goes on through a text only meets paths that were ahead of it, and one that
reads an element to its end is left with the paths of what stands behind the element. -/

namespace TopicBroker.Xml

/-- The local names of nested elements, the innermost first. -/
abbrev Path := List (List Char)

/-- The paths of the elements that tokens open, given the path of the element that is open. They end
where the root does, or the text stops making sense. -/
def paths : Path → List Token → List Path
  | _, [] | _, .broken :: _ => []
  | path, .opening tag :: rest =>
    (localName tag.name :: path) :: paths (localName tag.name :: path) rest
  | _ :: name :: path, .closing :: rest => paths (name :: path) rest
  | _, .closing :: _ => []
  | path, .characters _ :: rest | path, .verbatim _ :: rest | path, .doctype :: rest =>
    paths path rest

/-- The paths of the elements in a text. -/
def pathsOf (text : String) : List Path :=
  paths [] (scan text)

example : pathsOf "<a><b>1</b><n:c/></a><d/>" =
    [["a".toList], ["b".toList, "a".toList], ["c".toList, "a".toList]] := by
  decide +kernel

namespace Cursor

/-- The paths of the elements from a place on. -/
def paths (path : Path) (c : Cursor) : List Path :=
  Xml.paths path (c.ahead.toList ++ c.rest)

variable {path above : Path} {name outer : List Char} {c rest : Cursor}

/-! ## Steps -/

theorem paths_start (path : Path) (trims : Bool) (scope : Scope) (tokens : List Token) :
    (start trims scope tokens).paths path ⊆ Xml.paths path tokens := by
  fun_induction start trims scope tokens with
  | case1 => exact List.Subset.refl _
  | case2 scope raw rest hraw ih => exact ih
  | case3 => exact List.Subset.refl _
  | case4 => exact List.Subset.refl _
  | case5 => exact List.Subset.refl _
  | case6 => exact List.nil_subset _
  | case7 => exact List.Subset.refl _

theorem paths_ofText (text : String) : (ofText text).paths [] ⊆ pathsOf text :=
  paths_start [] true .empty (scan text)

theorem paths_advance (path : Path) (c : Cursor) :
    c.advance.paths path ⊆ Xml.paths path c.rest :=
  paths_start path _ _ _

theorem paths_advance_opening {tag : Tag} (h : c.ahead = some (.opening tag)) :
    localName tag.name :: path ∈ c.paths path ∧
      c.advance.paths (localName tag.name :: path) ⊆ c.paths path := by
  have hpaths : c.paths path =
      (localName tag.name :: path) :: Xml.paths (localName tag.name :: path) c.rest := by
    simp [paths, h, Xml.paths]
  rw [hpaths]
  exact ⟨List.mem_cons_self, List.Subset.trans (paths_advance _ c) (List.subset_cons_self _ _)⟩

theorem paths_advance_closing (h : c.ahead = some .closing) :
    c.advance.paths (outer :: above) ⊆ c.paths (name :: outer :: above) := by
  have hpaths : c.paths (name :: outer :: above) = Xml.paths (outer :: above) c.rest := by
    simp [paths, h, Xml.paths]
  rw [hpaths]
  exact paths_advance _ c

/-- A token that is no tag leaves the path as it is. -/
theorem paths_advance_other {token : Token} (h : c.ahead = some token)
    (htoken : token.isRun = true ∨ token = .doctype) : c.advance.paths path ⊆ c.paths path := by
  have hpaths : c.paths path = Xml.paths path c.rest := by
    cases token <;> simp_all [paths, Xml.paths, Token.isRun]
  rw [hpaths]
  exact paths_advance path c

/-! ## Events -/

theorem paths_readRuns? {cs : List Char} (h : c.readRuns? = some (cs, rest)) :
    rest.paths path ⊆ c.paths path := by
  fun_induction readRuns? c generalizing cs with
  | case1 c raw hahead ih =>
      obtain ⟨front, -, h⟩ := Option.bind_eq_some_iff.mp h
      obtain ⟨⟨more, behind⟩, hmore, h⟩ := Option.bind_eq_some_iff.mp h
      cases h
      exact List.Subset.trans (ih hmore) (paths_advance_other hahead (.inl rfl))
  | case2 c raw hahead ih =>
      obtain ⟨⟨more, behind⟩, hmore, h⟩ := Option.bind_eq_some_iff.mp h
      cases h
      exact List.Subset.trans (ih hmore) (paths_advance_other hahead (.inl rfl))
  | case3 c _ _ =>
      cases h
      exact List.Subset.refl _

/-- What the paths behind an event are, given the path in front of it. -/
def Follows (path : Path) (c : Cursor) : Event → Cursor → Prop
  | .opened tag, rest =>
    localName tag.name :: path ∈ c.paths path ∧
      rest.paths (localName tag.name :: path) ⊆ c.paths path
  | .closed, rest => ∀ name outer above, path = name :: outer :: above →
    rest.paths (outer :: above) ⊆ c.paths path
  | .text _, rest | .finished, rest => rest.paths path ⊆ c.paths path

theorem Follows.of_subset {before : Cursor} {event : Event} (h : Follows path c event rest)
    (hsubset : c.paths path ⊆ before.paths path) : Follows path before event rest := by
  cases event with
  | opened tag => exact ⟨hsubset h.1, List.Subset.trans h.2 hsubset⟩
  | closed =>
      intro name outer above hpath
      exact List.Subset.trans (h name outer above hpath) hsubset
  | text cs => exact List.Subset.trans h hsubset
  | finished => exact List.Subset.trans h hsubset

theorem follows_next? (path : Path) {event : Event} (h : c.next? = some (event, rest)) :
    Follows path c event rest := by
  fun_induction next? c with
  | case1 c hahead =>
      cases h
      exact List.Subset.refl _
  | case2 => cases h
  | case3 c hahead ih => exact (ih h).of_subset (paths_advance_other hahead (.inr rfl))
  | case4 c tag hahead =>
      cases h
      exact paths_advance_opening hahead
  | case5 c hahead =>
      cases h
      rintro name outer above rfl
      exact paths_advance_closing hahead
  | case6 c raw hahead hblank ih => exact (ih h).of_subset (paths_advance_other hahead (.inl rfl))
  | case7 c raw hahead hblank =>
      obtain ⟨⟨cs, behind⟩, hruns, h⟩ := Option.map_eq_some_iff.mp h
      cases h
      exact paths_readRuns? hruns
  | case8 c raw hahead =>
      obtain ⟨⟨cs, behind⟩, hruns, h⟩ := Option.map_eq_some_iff.mp h
      cases h
      exact paths_readRuns? hruns

/-! ## Passing over elements -/

theorem paths_dropElement? {depth : Nat} {tokens behind : List Token} {inner : Path}
    (h : dropElement? depth tokens = some behind) (hdepth : inner.length = depth) :
    Xml.paths (outer :: above) behind ⊆ Xml.paths (inner ++ name :: outer :: above) tokens := by
  fun_induction dropElement? depth tokens generalizing inner with
  | case1 => cases h
  | case2 => cases h
  | case3 depth tag rest ih =>
      have hinner : (localName tag.name :: inner).length = depth + 1 := congrArg (· + 1) hdepth
      have hrest := ih h hinner
      exact List.Subset.trans hrest (List.subset_cons_self _ _)
  | case4 rest =>
      cases h
      obtain rfl := List.length_eq_zero_iff.mp hdepth
      exact List.Subset.refl _
  | case5 depth rest ih =>
      obtain _ | ⟨last, inner⟩ := inner
      · cases hdepth
      · have hrest := ih h (Nat.succ.inj hdepth)
        have hpaths : Xml.paths (last :: inner ++ name :: outer :: above) (.closing :: rest) =
            Xml.paths (inner ++ name :: outer :: above) rest := by
          cases inner <;> rfl
        rwa [hpaths]
  | case6 depth token rest hbroken hopening hclosing hsucc ih =>
      have hpaths : Xml.paths (inner ++ name :: outer :: above) (token :: rest) =
          Xml.paths (inner ++ name :: outer :: above) rest := by
        cases token <;> cases depth <;> simp_all [Xml.paths]
      rw [hpaths]
      exact ih h hdepth

theorem paths_drop (inner : Path) (name outer : List Char) (above : Path)
    (h : (dropElement? inner.length c.rest).map (fun rest => { c with rest }.advance) = some rest) :
    rest.paths (outer :: above) ⊆ Xml.paths (inner ++ name :: outer :: above) c.rest := by
  obtain ⟨behind, hdrop, rfl⟩ := Option.map_eq_some_iff.mp h
  have hadvance := paths_advance (outer :: above) { c with rest := behind }
  exact List.Subset.trans hadvance (paths_dropElement? hdrop rfl)

theorem paths_close? (h : c.close? = some rest) :
    rest.paths (outer :: above) ⊆ c.paths (name :: outer :: above) := by
  unfold close? at h
  split at h
  · cases h
  · cases h
  · next hahead =>
      cases h
      exact paths_advance_closing hahead
  · next tag hahead =>
      have hrest := paths_drop [localName tag.name] name outer above h
      have hpaths : c.paths (name :: outer :: above) =
          (localName tag.name :: name :: outer :: above) ::
            Xml.paths (localName tag.name :: name :: outer :: above) c.rest := by
        simp [paths, hahead, Xml.paths]
      rw [hpaths]
      exact List.Subset.trans hrest (List.subset_cons_self _ _)
  · next token hclosing hbroken hopening hahead =>
      have hrest := paths_drop [] name outer above h
      have hpaths : c.paths (name :: outer :: above) =
          Xml.paths (name :: outer :: above) c.rest := by
        cases token <;> simp_all [paths, Xml.paths]
      rw [hpaths]
      exact hrest

/-- Whatever an element holds, passing over it leads to what stands behind it. -/
theorem paths_skip? (h : c.skip? = some rest) :
    rest.paths (outer :: above) ⊆ c.paths (name :: outer :: above) := by
  obtain ⟨⟨event, next⟩, hnext, h⟩ := Option.bind_eq_some_iff.mp h
  have hfollows := follows_next? (name :: outer :: above) hnext
  cases event with
  | closed =>
      cases h
      exact hfollows name outer above rfl
  | opened tag =>
      obtain ⟨closed, hclosed, h⟩ := Option.bind_eq_some_iff.mp h
      have hinner : closed.paths (name :: outer :: above) ⊆
          next.paths (localName tag.name :: name :: outer :: above) := paths_close? hclosed
      have hbehind := List.Subset.trans hinner hfollows.2
      exact List.Subset.trans (paths_close? h) hbehind
  | text cs => exact List.Subset.trans (paths_close? h) hfollows
  | finished => exact List.Subset.trans (paths_close? h) hfollows

end Cursor

end TopicBroker.Xml
