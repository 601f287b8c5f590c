import TopicBroker.Base64
import TopicBroker.Record.Row
import TopicBroker.Xml.Event
import TopicBroker.Xml.Writer

/-!
# Records in XML

A record is written as an element that holds an element for each field in order; a list is written
as an element for each of its items, and an option that is absent is left out. The elements of a
record are read in any order, but the items of a list have to stand together. Elements with unknown
names, attributes and texts between elements are passed over, and the root may have any name.
-/

namespace TopicBroker.Record

open Xml

/-! ## Reading simple values -/

def orUnreadable {α : Type} (x : Option α) : Except Fault α :=
  x.elim (.error .unreadable) .ok

/-- Reads the rest of an element that holds nothing but a text. -/
def readContent (c : Cursor) : Except Fault (List Char × Cursor) := do
  match ← orUnreadable c.next? with
  | (.closed, rest) => .ok ([], rest)
  | (.text cs, rest) =>
    match ← orUnreadable rest.next? with
    | (.closed, rest) => .ok (cs, rest)
    | _ => .error .unreadable
  | _ => .error .unreadable

/-- The whole number that a text stands for: digits behind an optional sign. -/
def wholeNumber? (cs : List Char) : Option Int :=
  let digits := fun (ds : List Char) => if ds.isEmpty then none else digitsValue? 10 ds
  match cs with
  | '-' :: ds => (digits ds).map fun n => -(n : Int)
  | '+' :: ds => (digits ds).map Int.ofNat
  | ds => (digits ds).map Int.ofNat

/-- Reads the items of a list behind the first one: texts, and elements of the same name. The place
at the end is in front of what is no item. Every item takes a token, so fuel for every token and the
end is enough. -/
def readItemsXml (name : List Char) : Nat → Cursor → Except Fault (List String × Cursor)
  | 0, _ => .error .unreadable
  | fuel + 1, c => do
    match ← orUnreadable c.next? with
    | (.text cs, rest) =>
      let (items, rest) ← readItemsXml name fuel rest
      .ok (String.ofList cs :: items, rest)
    | (.opened tag, rest) =>
      if tag.name = name then
        let (cs, rest) ← readContent rest
        let (items, rest) ← readItemsXml name fuel rest
        .ok (String.ofList cs :: items, rest)
      else .ok ([], c)
    | (.closed, _) => .ok ([], c)
    | (.finished, _) => .error .unreadable

/-- Reads a value of a simple kind from the rest of an element, or of elements. -/
def Leaf.readXml (tag : Tag) : (leaf : Leaf) → Cursor → Except Fault (leaf.Value × Cursor)
  | .integer range, c => do
    let (cs, rest) ← readContent c
    match (wholeNumber? cs).bind range.member? with
    | some member => .ok (member, rest)
    | none => .error (.wrongType (.text (String.ofList cs)) range.name)
  | .text, c => (readContent c).map fun (cs, rest) => (String.ofList cs, rest)
  | .texts, c => do
    let (cs, rest) ← readContent c
    let (items, rest) ← readItemsXml tag.name (rest.size + 1) rest
    .ok (String.ofList cs :: items, rest)
  | .bytes, c => do
    let (cs, rest) ← readContent c
    let bytes ← orUnreadable (Base64.decode? cs)
    .ok (bytes, rest)

/-! ## Reading records -/

/-- How a value of some kind is read from the rest of an element, given its tag and the place behind
the tag. -/
abbrev XmlReader {κ : Type} (V : κ → Type) :=
  (kind : κ) → Tag → Cursor → Except Fault (V kind × Cursor)

section

variable {κ : Type} {V : κ → Type}

/-- Reads an option in an element of a record. If the element or the record is marked as absent, the
element is passed over. -/
def readOption {α : Type} (record tag : Tag) (c : Cursor) (value : Except Fault (α × Cursor)) :
    Except Fault (Option α × Cursor) :=
  if c.scope.marksAbsent record || c.scope.marksAbsent tag then
    (orUnreadable c.skip?).map fun rest => (none, rest)
  else value.map fun (x, rest) => (some x, rest)

/-- Reads the value of a field, given the tags of the record and of the element. -/
def Field.readXml (readValue : XmlReader V) (record tag : Tag) (c : Cursor) :
    (f : Field V) → Except Fault (f.Value × Cursor)
  | ⟨_, kind, .required⟩ => readValue kind tag c
  | ⟨_, kind, .defaulted _⟩ => readValue kind tag c
  | ⟨_, kind, .optional⟩ => readOption record tag c (readValue kind tag c)
  | ⟨_, kind, .nullable⟩ => readOption record tag c (readValue kind tag c)

/-- Puts the value of an element in the slot of its name, if there is one and it is free. -/
def Slots.fillXml (readValue : XmlReader V) (record tag : Tag) (c : Cursor) :
    (fs : List (Field V)) → Slots fs → Except Fault (Option (Slots fs × Cursor))
  | [], () => .ok none
  | f :: fs, (slot, slots) =>
    if f.name.toList = localName tag.name then
      match slot with
      | some _ => .error (.duplicate f.name)
      | none =>
        (f.readXml readValue record tag c).map fun (value, rest) =>
          some ((some value, slots), rest)
    else
      (fillXml readValue record tag c fs slots).map
        (·.map fun (slots, rest) => ((slot, slots), rest))

/-- Reads the elements of a record up to its end. Every step takes a token, so fuel for every token
and the end is enough. -/
def readFields (readValue : XmlReader V) (record : Tag) (fs : List (Field V)) :
    Nat → Slots fs → Cursor → Except Fault (Slots fs × Cursor)
  | 0, _, _ => .error .unreadable
  | fuel + 1, slots, c => do
    match ← orUnreadable c.next? with
    | (.closed, rest) => .ok (slots, rest)
    | (.finished, _) => .error .unreadable
    | (.text _, rest) => readFields readValue record fs fuel slots rest
    | (.opened tag, rest) =>
      match ← Slots.fillXml readValue record tag rest fs slots with
      | some (slots, rest) => readFields readValue record fs fuel slots rest
      | none =>
        let rest ← orUnreadable rest.skip?
        readFields readValue record fs fuel slots rest

def Schema.readXml (readValue : XmlReader V) (schema : Schema V) (tag : Tag) (c : Cursor) :
    Except Fault (schema.Value × Cursor) :=
  if tag.hasValidAttributes then do
    let (slots, rest) ← readFields readValue tag schema.fields (c.size + 1)
      (Slots.empty schema.fields) c
    let row ← slots.close schema.fields
    .ok (row, rest)
  else .error .unreadable

end

def Kind.readXml : XmlReader Kind.Value
  | .leaf kind, tag, c => kind.readXml tag c
  | .record schema, tag, c => schema.readXml (fun kind tag c => Leaf.readXml tag kind c) tag c

/-! ## Writing -/

def Leaf.writeXml (name : String) : (leaf : Leaf) → leaf.Value → List Char
  | .integer _, n => element name (Text.decimal n.val)
  | .text, s => element name (escapeText s)
  | .texts, ss => ss.flatMap fun s => element name (escapeText s)
  | .bytes, bs => element name (Base64.encode bs)

section

variable {κ : Type} {V : κ → Type}

def writeRowXml (writeValue : String → (kind : κ) → V kind → List Char) :
    (fs : List (Field V)) → Row fs → List Char
  | [], () => []
  | ⟨name, kind, .required⟩ :: fs, (value, row) =>
    writeValue name kind value ++ writeRowXml writeValue fs row
  | ⟨name, kind, .defaulted _⟩ :: fs, (value, row) =>
    writeValue name kind value ++ writeRowXml writeValue fs row
  | ⟨name, kind, .optional⟩ :: fs, (value, row) =>
    (value.map (writeValue name kind)).getD [] ++ writeRowXml writeValue fs row
  | ⟨name, kind, .nullable⟩ :: fs, (value, row) =>
    (value.map (writeValue name kind)).getD [] ++ writeRowXml writeValue fs row

end

def Kind.writeXml (name : String) : (kind : Kind) → kind.Value → List Char
  | .leaf kind, value => kind.writeXml name value
  | .record schema, row => element name (writeRowXml Leaf.writeXml schema.fields row)

/-! ## Values of types with a schema -/

section

variable {α : Type} [Structured α]

/-- Reads a value of a type from an XML text. What stands behind the root is passed over. -/
def fromXmlText (text : String) : Except Fault α := do
  let shape := Structured.shape α
  match ← orUnreadable (Cursor.ofText text).next? with
  | (.opened tag, rest) =>
    let (row, _) ← shape.readXml Kind.readXml tag rest
    .ok (Structured.ofRow row)
  | (.text cs, _) =>
    .error (.wrongType (.text (String.ofList cs)) ("struct " ++ shape.name))
  | (.closed, _) | (.finished, _) => .error .unreadable

def toXmlText (x : α) : String :=
  let shape := Structured.shape α
  String.ofList (element shape.name
    (writeRowXml Kind.writeXml shape.fields (Structured.toRow x)))

end

end TopicBroker.Record
