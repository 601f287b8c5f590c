import TopicBroker.Xml.Scope

/-!
# Places in XML texts

A reader of a text has one token ahead of it. White space is dropped where a text starts, and a
start tag is entered, when they come ahead, before anything is made of them. `size` tells how much
is left to read, and `size_advance_lt` that every step takes of it.
-/

namespace TopicBroker.Xml

/-- Drops white space in front of a run. -/
def trimFront (raw : List Char) : List Char :=
  raw.dropWhile isSpace

/-- Drops white space behind a run. -/
def trimBack (raw : List Char) : List Char :=
  (raw.reverse.dropWhile isSpace).reverse

def Token.isRun : Token → Bool
  | .characters _ | .verbatim _ => true
  | _ => false

/-- A place in a text: the token ahead, if the text goes on, the tokens behind it, and the scope, in
which the token ahead is entered if it is a start tag. -/
structure Cursor where
  ahead : Option Token
  rest : List Token
  scope : Scope
  deriving DecidableEq, Repr

namespace Cursor

/-- The place in front of tokens. A flag tells that white space is dropped at the front of a run; a
run of nothing else is passed over then. -/
def start (trims : Bool) (scope : Scope) : List Token → Cursor
  | [] => ⟨none, [], scope⟩
  | .characters raw :: rest =>
    if trims then
      match trimFront raw with
      | [] => start trims scope rest
      | raw => ⟨some (.characters raw), rest, scope⟩
    else ⟨some (.characters raw), rest, scope⟩
  | .opening tag :: rest =>
    match scope.enter? tag with
    | some scope => ⟨some (.opening tag), rest, scope⟩
    | none => ⟨some .broken, rest, scope⟩
  | token :: rest => ⟨some token, rest, scope⟩

/-- The place in front of the first token of a text. -/
def ofText (text : String) : Cursor :=
  start true .empty (scan text)

def atRun (c : Cursor) : Bool :=
  c.ahead.any Token.isRun

/-- The place behind the token ahead. An end tag leaves the scope, and white space belongs to a run
that follows another one. -/
def advance (c : Cursor) : Cursor :=
  start (!c.atRun) (if c.ahead = some .closing then c.scope.leave else c.scope) c.rest

/-! ## What is left to read -/

/-- The number of tokens that are left. -/
def size (c : Cursor) : Nat :=
  c.ahead.toList.length + c.rest.length

theorem size_start_le (trims : Bool) (scope : Scope) (tokens : List Token) :
    (start trims scope tokens).size ≤ tokens.length := by
  fun_induction start <;> simp_all [size] <;> omega

theorem size_advance_lt {c : Cursor} {token : Token} (h : c.ahead = some token) :
    c.advance.size < c.size := by
  have : c.advance.size ≤ c.rest.length := size_start_le ..
  simp only [size, h, Option.toList, List.length_cons, List.length_nil] at *
  omega

end Cursor

end TopicBroker.Xml
