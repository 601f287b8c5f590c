import TopicBroker.Text.Utf8

/-!
# XML tokens

The tokens of an XML text: tags, runs of characters and the rest of its markup. `scan` never fails:
where a text stops making sense the tokens end in a `broken` one. An end tag has to name the
element that is open.
-/

namespace TopicBroker.Xml

/-- A start tag: its name and what follows the name. -/
structure Tag where
  name : List Char
  attributes : List Char
  deriving DecidableEq, Repr

/-- A token. Comments, declarations and processing instructions leave none. -/
inductive Token where
  /-- A start tag; an empty-element tag is a start tag with its end tag. -/
  | opening (tag : Tag)
  /-- An end tag. -/
  | closing
  /-- Characters between tags, with references in them. -/
  | characters (raw : List Char)
  /-- Characters that stand for themselves. -/
  | verbatim (raw : List Char)
  /-- A document type declaration. -/
  | doctype
  /-- The text makes no sense from here on. -/
  | broken
  deriving DecidableEq, Repr

def isSpace (c : Char) : Bool :=
  c == ' ' || c == '\r' || c == '\n' || c == '\t'

/-- What stands in front of the first place where a mark stands, and what stands behind it. -/
def splitAtMark? (mark : List Char) : List Char → Option (List Char × List Char)
  | [] => if mark.isEmpty then some ([], []) else none
  | c :: cs =>
    if mark.isPrefixOf (c :: cs) then some ([], (c :: cs).drop mark.length)
    else (splitAtMark? mark cs).map fun (before, behind) => (c :: before, behind)

/-- The rest of a tag up to its closing bracket; brackets in quotes do not count. The first
argument is the quote that is open. -/
def splitTag? : Option Char → List Char → Option (List Char × List Char)
  | _, [] => none
  | none, '>' :: cs => some ([], cs)
  | none, c :: cs =>
    let quote := if c = '\'' ∨ c = '"' then some c else none
    (splitTag? quote cs).map fun (inside, behind) => (c :: inside, behind)
  | some quote, c :: cs =>
    (splitTag? (if c = quote then none else some quote) cs).map fun (inside, behind) =>
      (c :: inside, behind)

/-- The rest of a declaration up to the bracket that closes it, given the number of brackets that
are open inside it. -/
def splitDeclaration? : Nat → List Char → Option (List Char × List Char)
  | _, [] => none
  | 0, '>' :: cs => some ([], cs)
  | depth + 1, '>' :: cs =>
    (splitDeclaration? depth cs).map fun (inside, behind) => ('>' :: inside, behind)
  | depth, c :: cs =>
    (splitDeclaration? (if c = '<' then depth + 1 else depth) cs).map fun (inside, behind) =>
      (c :: inside, behind)

/-- A document type declaration: the word in any case, and a name. -/
def isDoctype (inside : List Char) : Bool :=
  (inside.take 7).map Char.toLower == "doctype".toList && (inside.drop 7).any (!isSpace ·)

/-- The inside of a start tag as a tag, and whether it closes itself. -/
def tagOf (inside : List Char) : Tag × Bool :=
  let closes := inside.getLast? == some '/'
  let inside := if closes then inside.dropLast else inside
  (⟨inside.takeWhile (!isSpace ·), inside.dropWhile (!isSpace ·)⟩, closes)

def closingName (inside : List Char) : List Char :=
  if inside.all isSpace then inside else (inside.reverse.dropWhile isSpace).reverse

/-- Reads markup behind an opening bracket: the tokens it makes, the elements that are open then,
and the rest. -/
def scanMarkup? (opened : List (List Char)) (cs : List Char) :
    Option (List Token × List (List Char) × List Char) :=
  match cs with
  | '!' :: '-' :: '-' :: cs =>
    (splitAtMark? "-->".toList cs).map fun (_, rest) => ([], opened, rest)
  | '!' :: '[' :: 'C' :: 'D' :: 'A' :: 'T' :: 'A' :: '[' :: cs =>
    (splitAtMark? "]]>".toList cs).map fun (raw, rest) => ([.verbatim raw], opened, rest)
  | '!' :: cs => do
    let (inside, rest) ← splitDeclaration? 0 cs
    if isDoctype inside then some ([.doctype], opened, rest) else none
  | '?' :: '>' :: _ => none
  | '?' :: cs => (splitAtMark? "?>".toList cs).map fun (_, rest) => ([], opened, rest)
  | '/' :: cs => do
    let (inside, rest) ← splitAtMark? ['>'] cs
    match opened with
    | name :: opened => if closingName inside = name then some ([.closing], opened, rest) else none
    | [] => none
  | cs => do
    let (inside, rest) ← splitTag? none cs
    let (tag, closes) := tagOf inside
    if closes then some ([.opening tag, .closing], opened, rest)
    else some ([.opening tag], tag.name :: opened, rest)

/-- Reads tokens. Every step takes a character, so the length of the text is fuel enough. -/
def scanFrom : Nat → List (List Char) → List Char → List Token
  | 0, _, _ => []
  | fuel + 1, opened, cs =>
    match cs with
    | [] => []
    | '<' :: cs =>
      match scanMarkup? opened cs with
      | none => [.broken]
      | some (tokens, opened, rest) => tokens ++ scanFrom fuel opened rest
    | cs =>
      .characters (cs.takeWhile (· ≠ '<')) :: scanFrom fuel opened (cs.dropWhile (· ≠ '<'))

/-- The tokens of a text. -/
def scan (text : String) : List Token :=
  let cs := Utf8.dropMark text.toList
  scanFrom cs.length [] cs

end TopicBroker.Xml
