import TopicBroker.Proofs.Json.Inline
import TopicBroker.Proofs.Text.Utf8
import TopicBroker.Wire.Lines

/-! # Streams and their lines

A stream falls into lines in one way only. Texts without line breaks that are written one after the
other, each with a line feed behind it, are the lines of what is written. -/

namespace TopicBroker.Wire.Lines

/-- A stream is made of lines. A line has no line feed in it and ends before a line feed, or before
a carriage return and a line feed. The last one may end with the stream, if it is not empty. -/
inductive Cut : List UInt8 → List (List UInt8) → Prop where
  | done : Cut [] []
  | last (line) : line ≠ [] → lineFeed ∉ line → Cut line [line]
  | feed (line) {stream lines} : lineFeed ∉ line → line.getLast? ≠ some carriageReturn →
      Cut stream lines → Cut (line ++ lineFeed :: stream) (line :: lines)
  | returnFeed (line) {stream lines} : lineFeed ∉ line → Cut stream lines →
      Cut (line ++ carriageReturn :: lineFeed :: stream) (line :: lines)

/-! ## The first line -/

theorem break?_of_not_mem {bytes : List UInt8} (h : lineFeed ∉ bytes) : break? bytes = none := by
  induction bytes with
  | nil => rfl
  | cons b bytes ih =>
      obtain ⟨hb, hbytes⟩ := List.ne_and_not_mem_of_not_mem_cons h
      simp [break?, hb.symm, ih hbytes]

theorem break?_append {line : List UInt8} (h : lineFeed ∉ line) (rest : List UInt8) :
    break? (line ++ lineFeed :: rest) = some (line, rest) := by
  induction line with
  | nil => simp [break?]
  | cons b line ih =>
      obtain ⟨hb, hline⟩ := List.ne_and_not_mem_of_not_mem_cons h
      simp [break?, hb.symm, ih hline]

theorem eq_append_of_break? {bytes line rest : List UInt8} (h : break? bytes = some (line, rest)) :
    lineFeed ∉ line ∧ bytes = line ++ lineFeed :: rest := by
  by_cases hmem : lineFeed ∈ bytes
  · obtain ⟨front, back, rfl, hfront⟩ := List.eq_append_cons_of_mem hmem
    rw [break?_append hfront] at h
    cases h
    exact ⟨hfront, rfl⟩
  · rw [break?_of_not_mem hmem] at h
    cases h

theorem not_mem_of_break? {bytes : List UInt8} (h : break? bytes = none) : lineFeed ∉ bytes := by
  intro hmem
  obtain ⟨front, back, rfl, hfront⟩ := List.eq_append_cons_of_mem hmem
  rw [break?_append hfront] at h
  cases h

theorem chop_of_getLast? {line : List UInt8} (h : line.getLast? ≠ some carriageReturn) :
    chop line = line := by
  simp [chop, h]

theorem chop_concat (line : List UInt8) : chop (line ++ [carriageReturn]) = line := by
  simp [chop]

theorem next?_append {line : List UInt8} (h : lineFeed ∉ line) (rest : List UInt8) :
    next? (line ++ lineFeed :: rest) = some (chop line, rest) := by
  simp [next?, break?_append h]

theorem next?_of_not_mem {line : List UInt8} (hne : line ≠ []) (h : lineFeed ∉ line) :
    next? line = some (line, []) := by
  simp [next?, break?_of_not_mem h, hne]

theorem lines_of_next? {stream line rest : List UInt8} (h : next? stream = some (line, rest)) :
    lines stream = line :: lines rest := by
  rw [lines]
  split
  · next hnone => rw [hnone] at h; cases h
  · next hsome =>
      rw [hsome] at h
      cases h
      rfl

theorem lines_of_none {stream : List UInt8} (h : next? stream = none) : lines stream = [] := by
  rw [lines]
  split
  · rfl
  · next hsome => rw [h] at hsome; cases hsome

@[simp] theorem lines_nil : lines [] = [] :=
  lines_of_none rfl

/-! ## All lines -/

theorem cut_lines (stream : List UInt8) : Cut stream (lines stream) := by
  fun_induction lines stream with
  | case1 stream hnone =>
      have hnil : stream = [] := by
        unfold next? at hnone
        split at hnone
        · cases hnone
        · simpa using hnone
      exact hnil ▸ .done
  | case2 stream line rest hsome ih =>
      unfold next? at hsome
      split at hsome
      · next broken behind hbreak =>
          obtain ⟨hfeed, rfl⟩ := eq_append_of_break? hbreak
          cases hsome
          by_cases hlast : broken.getLast? = some carriageReturn
          · obtain ⟨front, rfl⟩ := List.getLast?_eq_some_iff.mp hlast
            rw [List.mem_append, not_or] at hfeed
            rw [chop_concat, List.append_assoc]
            exact .returnFeed front hfeed.1 ih
          · rw [chop_of_getLast? hlast]
            exact .feed broken hfeed hlast ih
      · next hbreak =>
          split at hsome
          · cases hsome
          · next hne =>
              cases hsome
              rw [lines_nil]
              exact .last stream (by simpa using hne) (not_mem_of_break? hbreak)

theorem Cut.lines_eq {stream : List UInt8} {found : List (List UInt8)} (h : Cut stream found) :
    lines stream = found := by
  induction h with
  | done => exact lines_nil
  | last line hne hfeed => rw [lines_of_next? (next?_of_not_mem hne hfeed), lines_nil]
  | feed line hfeed hlast _ ih =>
      rw [lines_of_next? (next?_append hfeed _), chop_of_getLast? hlast, ih]
  | returnFeed line hfeed _ ih =>
      have hreturn : lineFeed ∉ line ++ [carriageReturn] := by
        rw [List.mem_append, List.mem_singleton, not_or]
        exact ⟨hfeed, by decide⟩
      have hnext := next?_append hreturn
      simp only [List.append_assoc, List.singleton_append, chop_concat] at hnext
      rw [lines_of_next? (hnext _), ih]

/-- A stream falls into its lines, and into no others. -/
theorem cut_iff {stream : List UInt8} {found : List (List UInt8)} :
    Cut stream found ↔ found = lines stream :=
  ⟨fun h => h.lines_eq.symm, fun h => h ▸ cut_lines stream⟩

/-! ## Written lines -/

/-- The bytes of a text on one line are those of no control character. -/
theorem not_mem_encode {text : String} (h : Json.Inline text.toList) {b : UInt8}
    (hb : b.toNat < 0x20) : b ∉ Utf8.encode text := by
  intro hmem
  exact absurd (Utf8.le_of_mem_encode h hmem) (by omega)

/-- A text that is written as a line is read as that line, with whatever follows it left over. -/
theorem next?_ofText {text : String} (h : Json.Inline text.toList) (rest : List UInt8) :
    next? (ofText text ++ rest) = some (Utf8.encode text, rest) := by
  have hfeed : lineFeed ∉ Utf8.encode text := not_mem_encode h (by decide)
  have hreturn : carriageReturn ∉ Utf8.encode text := not_mem_encode h (by decide)
  have hlast : (Utf8.encode text).getLast? ≠ some carriageReturn :=
    fun hlast => hreturn (List.mem_of_getLast? hlast)
  rw [ofText, List.append_assoc, List.singleton_append, next?_append hfeed, chop_of_getLast? hlast]

/-- Texts that are written as lines one after the other are the lines of what is written. -/
theorem lines_flatMap_ofText {texts : List String} (h : ∀ text ∈ texts, Json.Inline text.toList) :
    lines (texts.flatMap ofText) = texts.map Utf8.encode := by
  induction texts with
  | nil => exact lines_nil
  | cons text texts ih =>
      obtain ⟨htext, htexts⟩ := List.forall_mem_cons.mp h
      rw [List.flatMap_cons, lines_of_next? (next?_ofText htext _), ih htexts, List.map_cons]

end TopicBroker.Wire.Lines
