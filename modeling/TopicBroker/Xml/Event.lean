import TopicBroker.Xml.Cursor
import TopicBroker.Xml.Reference

/-!
# XML events

What a reader of records sees of an XML text: starts and ends of elements, and between them texts.
Neighbouring runs of characters are one text, references in it are resolved, and white space is
dropped in front of its first run and behind its last one.

An element may be passed over. What is ahead at that time has been looked at by then; nothing behind
it is: references are not resolved, and start tags are not entered.
-/

namespace TopicBroker.Xml

/-- An event. -/
inductive Event where
  | opened (tag : Tag)
  | closed
  | text (cs : List Char)
  | finished
  deriving DecidableEq, Repr

namespace Cursor

/-- Joins the runs ahead to one text. -/
def readRuns? (c : Cursor) : Option (List Char × Cursor) :=
  match _h : c.ahead with
  | some (.characters raw) => do
    let cs ← unescape? (if c.advance.atRun then raw else trimBack raw)
    let (more, rest) ← readRuns? c.advance
    some (cs ++ more, rest)
  | some (.verbatim raw) => do
    let (more, rest) ← readRuns? c.advance
    some (raw ++ more, rest)
  | _ => some ([], c)
termination_by c.size
decreasing_by all_goals exact size_advance_lt _h

/-- The next event and the place behind it, if the text makes sense so far. White space alone is no
text. -/
def next? (c : Cursor) : Option (Event × Cursor) :=
  match _h : c.ahead with
  | none => some (.finished, c)
  | some .broken => none
  | some .doctype => next? c.advance
  | some (.opening tag) => some (.opened tag, c.advance)
  | some .closing => some (.closed, c.advance)
  | some (.characters raw) =>
    if !c.advance.atRun && (trimBack raw).isEmpty then next? c.advance
    else c.readRuns?.map fun (cs, rest) => (.text cs, rest)
  | some (.verbatim _) => c.readRuns?.map fun (cs, rest) => (.text cs, rest)
termination_by c.size
decreasing_by all_goals exact size_advance_lt _h

/-! ## Passing over elements -/

/-- Drops the rest of an element, given the number of elements open inside it. -/
def dropElement? : Nat → List Token → Option (List Token)
  | _, [] | _, .broken :: _ => none
  | depth, .opening _ :: rest => dropElement? (depth + 1) rest
  | 0, .closing :: rest => some rest
  | depth + 1, .closing :: rest => dropElement? depth rest
  | depth, _ :: rest => dropElement? depth rest

/-- The place behind the end of the element that is open. Unless its end tag is ahead, tokens are
dropped up to it and the scope stays as it is. -/
def close? (c : Cursor) : Option Cursor :=
  match c.ahead with
  | none | some .broken => none
  | some .closing => some c.advance
  | some (.opening _) => (dropElement? 1 c.rest).map fun rest => { c with rest }.advance
  | some _ => (dropElement? 0 c.rest).map fun rest => { c with rest }.advance

/-- Passes over the rest of the element that is open. Its first event is read; if that is a start
tag its element is passed over first. -/
def skip? (c : Cursor) : Option Cursor := do
  match ← c.next? with
  | (.closed, c) => some c
  | (.opened _, c) => (← c.close?).close?
  | (.text _, c) | (.finished, c) => c.close?

example : (ofText "<a> b<!-- --> c </a>").advance.next?.map (·.1) = some (.text "b c".toList) := by
  decide +kernel

example : (ofText "<a>&no;</a>").advance.skip? = none := by decide +kernel

example : (ofText "<a><b>&no;</b></a>").advance.skip?.map (·.ahead) = some none := by
  decide +kernel

end Cursor

end TopicBroker.Xml
