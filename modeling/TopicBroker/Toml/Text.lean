import TopicBroker.Json.Reader

/-!
# Texts in TOML

Texts and the names of members are quoted in two ways: between double quotes with escapes, and
between single quotes as they are. Three quotes of a kind quote a text of several lines.
-/

namespace TopicBroker.Toml

def isBlank (c : Char) : Bool :=
  c == ' ' || c == '\t'

def skipBlanks (cs : List Char) : List Char :=
  cs.dropWhile isBlank

/-- A character that may stand in a text as it is: no control character but the tabulator. -/
def isPlain (c : Char) : Bool :=
  c == '\t' || (0x20 ≤ c.toNat && c.toNat != 0x7F)

/-! ## Escapes -/

/-- The character of a letter behind a backslash. -/
def unescape? : Char → Option Char
  | 'b' => some '\x08'
  | 't' => some '\t'
  | 'n' => some '\n'
  | 'f' => some '\x0c'
  | 'r' => some '\r'
  | 'e' => some '\x1b'
  | '"' => some '"'
  | '\\' => some '\\'
  | _ => none

def scalar? (n : Nat) : Option Char :=
  if n.isValidChar then some (Char.ofNat n) else none

/-- Reads what follows a backslash: a letter of its own, or the number of a character in two, four or
eight digits. -/
def readEscape? : List Char → Option (Char × List Char)
  | 'x' :: a :: b :: rest => do
    let c ← scalar? ((← Json.hexDigit? a) * 16 + (← Json.hexDigit? b))
    some (c, rest)
  | 'u' :: a :: b :: c :: d :: rest => do
    let c ← scalar? (← Json.hexQuad? a b c d)
    some (c, rest)
  | 'U' :: a :: b :: c :: d :: e :: f :: g :: h :: rest => do
    let c ← scalar? ((← Json.hexQuad? a b c d) * 65536 + (← Json.hexQuad? e f g h))
    some (c, rest)
  | c :: rest => (unescape? c).map (·, rest)
  | [] => none

/-! ## Texts in one line -/

/-- Reads a text with escapes behind its opening quote, with fuel for every character. -/
def readBasic? : Nat → List Char → Option (List Char × List Char)
  | 0, _ | _, [] => none
  | _ + 1, '"' :: rest => some ([], rest)
  | fuel + 1, '\\' :: rest => do
    let (c, rest) ← readEscape? rest
    let (cs, rest) ← readBasic? fuel rest
    some (c :: cs, rest)
  | fuel + 1, c :: rest =>
    if isPlain c then (readBasic? fuel rest).map fun (cs, rest) => (c :: cs, rest) else none

/-- Reads a text without escapes behind its opening quote. -/
def readLiteral? : List Char → Option (List Char × List Char)
  | [] => none
  | '\'' :: rest => some ([], rest)
  | c :: rest =>
    if isPlain c then (readLiteral? rest).map fun (cs, rest) => (c :: cs, rest) else none

/-! ## Texts of several lines -/

def skipBreak : List Char → List Char
  | '\n' :: rest | '\r' :: '\n' :: rest => rest
  | cs => cs

def skipLines : List Char → List Char
  | [] => []
  | '\n' :: rest | '\r' :: '\n' :: rest => skipLines rest
  | c :: rest => if isBlank c then skipLines rest else c :: rest

/-- Drops the line break at the front and all blanks and line breaks behind it, if blanks alone stand
before it. -/
def joinLines? (cs : List Char) : Option (List Char) :=
  match skipBlanks cs with
  | '\n' :: rest | '\r' :: '\n' :: rest => some (skipLines rest)
  | _ => none

/-- Reads a text of several lines with escapes, with fuel for every character. Line breaks belong to
the text as they are, and two quotes may stand in front of the closing three. -/
def readLongBasic? : Nat → List Char → Option (List Char × List Char)
  | 0, _ | _, [] => none
  | _ + 1, '"' :: '"' :: '"' :: '"' :: '"' :: rest => some (['"', '"'], rest)
  | _ + 1, '"' :: '"' :: '"' :: '"' :: rest => some (['"'], rest)
  | _ + 1, '"' :: '"' :: '"' :: rest => some ([], rest)
  | fuel + 1, '\\' :: rest =>
    match joinLines? rest with
    | some rest => readLongBasic? fuel rest
    | none => do
      let (c, rest) ← readEscape? rest
      let (cs, rest) ← readLongBasic? fuel rest
      some (c :: cs, rest)
  | fuel + 1, '\r' :: '\n' :: rest =>
    (readLongBasic? fuel rest).map fun (cs, rest) => ('\r' :: '\n' :: cs, rest)
  | fuel + 1, '\n' :: rest => (readLongBasic? fuel rest).map fun (cs, rest) => ('\n' :: cs, rest)
  | fuel + 1, c :: rest =>
    if isPlain c then (readLongBasic? fuel rest).map fun (cs, rest) => (c :: cs, rest) else none

/-- Reads a text of several lines without escapes. Line breaks belong to the text as they are, and
two quotes may stand in front of the closing three. -/
def readLongLiteral? : List Char → Option (List Char × List Char)
  | [] => none
  | '\'' :: '\'' :: '\'' :: '\'' :: '\'' :: rest => some (['\'', '\''], rest)
  | '\'' :: '\'' :: '\'' :: '\'' :: rest => some (['\''], rest)
  | '\'' :: '\'' :: '\'' :: rest => some ([], rest)
  | '\r' :: '\n' :: rest =>
    (readLongLiteral? rest).map fun (cs, rest) => ('\r' :: '\n' :: cs, rest)
  | '\n' :: rest => (readLongLiteral? rest).map fun (cs, rest) => ('\n' :: cs, rest)
  | c :: rest =>
    if isPlain c then (readLongLiteral? rest).map fun (cs, rest) => (c :: cs, rest) else none

/-- Reads a quoted text, if there is one at the front. -/
def readText? : List Char → Option (String × List Char)
  | '"' :: '"' :: '"' :: rest => ofList (readLongBasic? (rest.length + 1) (skipBreak rest))
  | '\'' :: '\'' :: '\'' :: rest => ofList (readLongLiteral? (skipBreak rest))
  | '"' :: rest => ofList (readBasic? (rest.length + 1) rest)
  | '\'' :: rest => ofList (readLiteral? rest)
  | _ => none
where
  /-- The characters that were read as a text. -/
  ofList (read : Option (List Char × List Char)) : Option (String × List Char) :=
    read.map fun (cs, rest) => (String.ofList cs, rest)

/-! ## Names -/

/-- A character that names are made of without quotes. -/
def isBare (c : Char) : Bool :=
  c.isAlphanum || c == '_' || c == '-'

def readName? : List Char → Option (String × List Char)
  | '"' :: rest => (readBasic? (rest.length + 1) rest).map fun (cs, rest) => (String.ofList cs, rest)
  | '\'' :: rest => (readLiteral? rest).map fun (cs, rest) => (String.ofList cs, rest)
  | cs =>
    match cs.span isBare with
    | ([], _) => none
    | (name, rest) => some (String.ofList name, rest)

/-- Reads the names behind the first one of a dotted key. -/
def readMoreNames? (cs : List Char) : Option (List String × List Char) :=
  match skipBlanks cs with
  | '.' :: rest =>
    match readName? (skipBlanks rest) with
    | some (name, rest) =>
      if rest.length < cs.length then
        (readMoreNames? rest).map fun (names, rest) => (name :: names, rest)
      else none
    | none => none
  | rest => some ([], rest)
termination_by cs.length

/-- Reads a key and the blanks behind it: its names, the last one apart. -/
def readKey? (cs : List Char) : Option ((List String × String) × List Char) := do
  let (first, rest) ← readName? cs
  let (more, rest) ← readMoreNames? rest
  let names := first :: more
  some ((names.dropLast, names.getLastD first), rest)

end TopicBroker.Toml
