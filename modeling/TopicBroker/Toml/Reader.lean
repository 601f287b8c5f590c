import TopicBroker.Text.Utf8
import TopicBroker.Toml.Scalar
import TopicBroker.Toml.Table

/-!
# Reading TOML

A document is a list of statements, each in lines of its own. It is read to a table, or refused as a
whole.
-/

namespace TopicBroker.Toml

/-! ## What is passed over -/

/-- Drops blanks, line breaks and comments. A character that may not stand in a comment is kept. -/
def skipFiller (inComment : Bool) : List Char → List Char
  | [] => []
  | '\n' :: rest | '\r' :: '\n' :: rest => skipFiller false rest
  | c :: rest =>
    if inComment then
      if isPlain c then skipFiller true rest else c :: rest
    else if c = '#' then skipFiller true rest
    else if isBlank c then skipFiller false rest
    else c :: rest

/-- Nothing but blanks and a comment follows in the line. -/
def atLineEnd (cs : List Char) : Bool :=
  match skipBlanks cs with
  | [] | '\n' :: _ | '\r' :: '\n' :: _ | '#' :: _ => true
  | _ => false

/-! ## Values -/

/-- Reads an equals sign with what may stand around it. -/
def readEquals? (skip : List Char → List Char) (cs : List Char) : Option (List Char) :=
  match skip cs with
  | '=' :: rest => some (skip rest)
  | _ => none

/-- The number of arrays and tables in braces that may stand in one another. -/
def deepest : Nat := 80

mutual

/-- Reads a value. The first number is how deep arrays and tables may still be nested. Every step
takes a character or hands over to one that does, so twice the length of the text is fuel enough. -/
def readValue? : Nat → Nat → List Char → Option (Toml × List Char)
  | _, 0, _ => none
  | depth, fuel + 1, cs =>
    match depth, cs with
    | 0, '[' :: _ | 0, '\x7b' :: _ => none
    | depth + 1, '[' :: rest => do
      let (items, rest) ← readItems? depth fuel (skipFiller false rest)
      some (.array items, rest)
    | depth + 1, '\x7b' :: rest => do
      let (statements, rest) ← readMembers? depth fuel (skipFiller false rest)
      some (.table (← ofStatements? statements), rest)
    | _, '"' :: _ | _, '\'' :: _ => (readText? cs).map fun (s, rest) => (.text s, rest)
    | _, cs => readUnquoted? cs

/-- Reads the values of an array and the closing bracket. A comma may stand behind the last one. -/
def readItems? : Nat → Nat → List Char → Option (List Toml × List Char)
  | _, 0, _ => none
  | _, _ + 1, ']' :: rest => some ([], rest)
  | depth, fuel + 1, cs => do
    let (item, rest) ← readValue? depth fuel cs
    match skipFiller false rest with
    | ']' :: rest => some ([item], rest)
    | ',' :: rest => do
      let (items, rest) ← readItems? depth fuel (skipFiller false rest)
      some (item :: items, rest)
    | _ => none

/-- Reads the members of a table and the closing brace. A comma may stand behind the last one, and
line breaks between the parts of a member. -/
def readMembers? : Nat → Nat → List Char → Option (List Statement × List Char)
  | _, 0, _ => none
  | _, _ + 1, '\x7d' :: rest => some ([], rest)
  | depth, fuel + 1, cs => do
    let ((path, name), rest) ← readKey? cs
    let rest ← readEquals? (skipFiller false) rest
    let (value, rest) ← readValue? depth fuel rest
    match skipFiller false rest with
    | '\x7d' :: rest => some ([.assign path name value], rest)
    | ',' :: rest => do
      let (statements, rest) ← readMembers? depth fuel (skipFiller false rest)
      some (.assign path name value :: statements, rest)
    | _ => none

end

/-! ## Documents -/

def readStatement? : List Char → Option (Statement × List Char)
  | '[' :: '[' :: rest => do
    let ((path, name), rest) ← readKey? (skipBlanks rest)
    match rest with
    | ']' :: ']' :: rest => some (.appendTable path name, rest)
    | _ => none
  | '[' :: rest => do
    let ((path, name), rest) ← readKey? (skipBlanks rest)
    match rest with
    | ']' :: rest => some (.openTable path name, rest)
    | _ => none
  | cs => do
    let ((path, name), rest) ← readKey? cs
    let rest ← readEquals? skipBlanks rest
    let (value, rest) ← readValue? deepest (2 * rest.length + 2) rest
    some (.assign path name value, rest)

def readStatements? (cs : List Char) : Option (List Statement) :=
  match skipFiller false cs with
  | [] => some []
  | start =>
    match readStatement? start with
    | none => none
    | some (statement, rest) =>
      if atLineEnd rest ∧ rest.length < cs.length then
        (readStatements? rest).map (statement :: ·)
      else none
termination_by cs.length

/-- The members of the table that a document stands for. -/
def read? (text : String) : Option (List (String × Toml)) := do
  let statements ← readStatements? (Utf8.dropMark text.toList)
  ofStatements? statements

end TopicBroker.Toml
