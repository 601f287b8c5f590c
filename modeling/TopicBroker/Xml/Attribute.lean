import TopicBroker.Xml.Token

/-!
# XML attributes

The attributes of a start tag. Reading them does not stop at a mistake: it goes on behind it, and a
reader of a tag decides what a mistake means.
-/

namespace TopicBroker.Xml

structure Attribute where
  name : List Char
  value : List Char
  deriving DecidableEq, Repr

def endsName (c : Char) : Bool :=
  c == '=' || isSpace c

/-- What is read next behind a mistake: all from the next blank. -/
def skipMistake (cs : List Char) : List Char :=
  cs.dropWhile (!isSpace ·)

/-- Reads a value behind its equals sign. It stands in quotes; if they are not closed nothing is
read behind it. -/
def readAttributeValue (cs : List Char) : Option (List Char) × List Char :=
  match cs.dropWhile isSpace with
  | [] => (none, [])
  | c :: cs =>
    if c = '\'' ∨ c = '"' then
      match splitAtMark? [c] cs with
      | some (value, rest) => (some value, rest)
      | none => (none, [])
    else (none, skipMistake (c :: cs))

/-- Reads attributes, with `none` for each mistake. A name may have any first character. If names
are to be distinct it is a mistake to give one of those seen before. Every step takes a character,
so the length of the text is fuel enough. -/
def readAttributes (distinct : Bool) :
    Nat → List (List Char) → List Char → List (Option Attribute)
  | 0, _, _ => []
  | fuel + 1, seen, cs =>
    match cs.dropWhile isSpace with
    | [] => []
    | c :: cs =>
      let name := c :: cs.takeWhile (!endsName ·)
      match (cs.dropWhile (!endsName ·)).dropWhile isSpace with
      | '=' :: cs =>
        if distinct && seen.contains name then
          none :: readAttributes distinct fuel seen (skipMistake cs)
        else
          let (value, rest) := readAttributeValue cs
          value.map (Attribute.mk name) :: readAttributes distinct fuel (name :: seen) rest
      | cs => none :: readAttributes distinct fuel seen cs

namespace Tag

/-- The attributes of a tag, with `none` for each mistake. -/
def parts (distinct : Bool) (tag : Tag) : List (Option Attribute) :=
  readAttributes distinct tag.attributes.length [] tag.attributes

/-- The attributes of a tag make sense, and no two have one name. -/
def hasValidAttributes (tag : Tag) : Bool :=
  (tag.parts true).all (·.isSome)

/-- The attributes with distinct names, whatever stands between them. -/
def distinctAttributes (tag : Tag) : List Attribute :=
  (tag.parts true).filterMap id

/-- The attributes in front of the first mistake; names may occur again. -/
def leadingAttributes (tag : Tag) : List Attribute :=
  ((tag.parts false).takeWhile (·.isSome)).filterMap id

end Tag

example : (Tag.mk [] " a='1' b=2 c".toList).parts true =
    [some ⟨['a'], ['1']⟩, none, none] := by decide +kernel
example : (Tag.mk [] " a='1' a='2' b='3'".toList).distinctAttributes =
    [⟨['a'], ['1']⟩, ⟨['b'], ['3']⟩] := by decide +kernel

end TopicBroker.Xml
