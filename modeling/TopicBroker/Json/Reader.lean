import TopicBroker.Json.Number

/-!
# Reading JSON

`read` takes a text to a value and tells whether anything but white space follows it. It never
fails: what cannot be read is a `broken` part of the value.
-/

namespace TopicBroker.Json

def isSpace (c : Char) : Bool :=
  c == ' ' || c == '\n' || c == '\t' || c == '\r'

def skipSpace (cs : List Char) : List Char :=
  cs.dropWhile isSpace

/-! ## Texts -/

/-- A part of a quoted text: a character, or a code unit that is written as four digits. -/
inductive CodeUnit where
  | plain (c : Char)
  | escaped (n : Nat)

def hexDigit? (c : Char) : Option Nat :=
  if '0' ≤ c ∧ c ≤ '9' then some (c.toNat - '0'.toNat)
  else if 'a' ≤ c ∧ c ≤ 'f' then some (c.toNat - 'a'.toNat + 10)
  else if 'A' ≤ c ∧ c ≤ 'F' then some (c.toNat - 'A'.toNat + 10)
  else none

def hexQuad? (a b c d : Char) : Option Nat := do
  some (((← hexDigit? a) * 16 + (← hexDigit? b)) * 256 + (← hexDigit? c) * 16 + (← hexDigit? d))

def unescape? : Char → Option Char
  | '"' => some '"'
  | '\\' => some '\\'
  | '/' => some '/'
  | 'b' => some '\x08'
  | 'f' => some '\x0c'
  | 'n' => some '\n'
  | 'r' => some '\r'
  | 't' => some '\t'
  | _ => none

/-- Reads a quoted text behind its opening quote up to its closing one. -/
def readUnits? : List Char → Option (List CodeUnit × List Char)
  | [] => none
  | '"' :: rest => some ([], rest)
  | '\\' :: 'u' :: a :: b :: c :: d :: rest => do
    let n ← hexQuad? a b c d
    let (units, rest) ← readUnits? rest
    some (.escaped n :: units, rest)
  | '\\' :: c :: rest => do
    let plain ← unescape? c
    let (units, rest) ← readUnits? rest
    some (.plain plain :: units, rest)
  | c :: rest =>
    if c.toNat < 0x20 then none
    else (readUnits? rest).map fun (units, rest) => (.plain c :: units, rest)

def isHighSurrogate (n : Nat) : Bool := 0xD800 ≤ n && n ≤ 0xDBFF

def isLowSurrogate (n : Nat) : Bool := 0xDC00 ≤ n && n ≤ 0xDFFF

/-- The characters that code units stand for, unless one of a pair is missing. -/
def joinUnits? : List CodeUnit → Option (List Char)
  | [] => some []
  | .plain c :: units => (joinUnits? units).map (c :: ·)
  | .escaped high :: .escaped low :: units =>
    if isHighSurrogate high then
      if isLowSurrogate low then
        (joinUnits? units).map
          (Char.ofNat (0x10000 + (high - 0xD800) * 0x400 + (low - 0xDC00)) :: ·)
      else none
    else if isLowSurrogate high then none
    else (joinUnits? (.escaped low :: units)).map (Char.ofNat high :: ·)
  | .escaped n :: units =>
    if isHighSurrogate n || isLowSurrogate n then none
    else (joinUnits? units).map (Char.ofNat n :: ·)

/-- Reads a quoted text behind its opening quote. -/
def readString? (cs : List Char) : Option (Option String × List Char) :=
  (readUnits? cs).map fun (units, rest) => ((joinUnits? units).map String.ofList, rest)

/-! ## Values -/

/-- Reads a value that is neither array nor object. -/
def readScalar : List Char → Json × List Char
  | 'n' :: 'u' :: 'l' :: 'l' :: rest => (.null, rest)
  | 't' :: 'r' :: 'u' :: 'e' :: rest => (.bool true, rest)
  | 'f' :: 'a' :: 'l' :: 's' :: 'e' :: rest => (.bool false, rest)
  | '"' :: rest => (readString? rest).elim (.broken, []) fun (s, rest) => (.string s, rest)
  | cs => (readNumber? cs).elim (.broken, []) fun (n, rest) => (.number n, rest)

mutual

/-- Reads a value. Every step takes a character or hands over to one that does, so twice the length
of the text is fuel enough. -/
def readValue : Nat → List Char → Json × List Char
  | 0, _ => (.broken, [])
  | fuel + 1, cs =>
    match skipSpace cs with
    | '[' :: rest =>
      match skipSpace rest with
      | ']' :: rest => (.array [], rest)
      | rest => ((readItems fuel rest).map .array id)
    | '\x7b' :: rest =>
      match skipSpace rest with
      | '\x7d' :: rest => (.object [], rest)
      | rest => ((readMembers fuel rest).map .object id)
    | rest => readScalar rest

/-- Reads the values of an array, of which there is at least one, and the closing bracket. -/
def readItems : Nat → List Char → List Json × List Char
  | 0, _ => ([.broken], [])
  | fuel + 1, cs =>
    let (item, rest) := readValue fuel cs
    match skipSpace rest with
    | ']' :: rest => ([item], rest)
    | ',' :: rest => (readItems fuel rest).map (item :: ·) id
    | _ => ([item, .broken], [])

/-- Reads the members of an object, of which there is at least one, and the closing brace. -/
def readMembers : Nat → List Char → List (Option String × Json) × List Char
  | 0, _ => ([(none, .broken)], [])
  | fuel + 1, cs =>
    match skipSpace cs with
    | '"' :: rest =>
      match readString? rest with
      | none => ([(none, .broken)], [])
      | some (name, rest) =>
        match skipSpace rest with
        | ':' :: rest =>
          let (value, rest) := readValue fuel rest
          match skipSpace rest with
          | '\x7d' :: rest => ([(name, value)], rest)
          | ',' :: rest => (readMembers fuel rest).map ((name, value) :: ·) id
          | _ => ([(name, value), (none, .broken)], [])
        | _ => ([(name, .broken)], [])
    | _ => ([(none, .broken)], [])

end

/-- A text read as one value. -/
structure Document where
  value : Json
  /-- Nothing but white space follows the value. -/
  complete : Bool

def read (text : String) : Document :=
  let (value, rest) := readValue (2 * text.length + 2) text.toList
  ⟨value, rest.all isSpace⟩

/-- The value of a text that is JSON from end to end. -/
def parse? (text : String) : Option Json :=
  let document := read text
  if document.complete && document.value.isWhole then some document.value else none

end TopicBroker.Json
