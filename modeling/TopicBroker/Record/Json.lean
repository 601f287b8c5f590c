import TopicBroker.Base64
import TopicBroker.Json.Reader
import TopicBroker.Record.Row

/-!
# Records in JSON

A record is written as an object with its fields in order, options that are absent left out. It is
read from an object in any order, members with unknown names passed over, or from a list of its
fields in order. A reader meets the parts of a text in their order and stops at the first fault.
-/

namespace TopicBroker.Record

/-- How a value is held: as its text is read, or read to the end before. -/
inductive Form where
  | streamed
  | settled
  deriving DecidableEq

/-- The fault of finding a value in the place of something else. -/
def Fault.ofJson (expected : String) : Json → Fault
  | .null => .wrongType .null expected
  | .bool b => .wrongType (.boolean b) expected
  | .number (some (.integer n)) => .wrongType (.integer n) expected
  | .number (some (.float x)) => .wrongType (.float x) expected
  | .string (some s) => .wrongType (.text s) expected
  | .array _ => .wrongType .sequence expected
  | .object _ => .wrongType .map expected
  | .number none | .string none | .broken => .unreadable

/-! ## Simple values -/

def readText : Json → Except Fault String
  | .string (some s) => .ok s
  | json => .error (.ofJson "a string" json)

def Leaf.readJson : (leaf : Leaf) → Json → Except Fault leaf.Value
  | .integer range, json =>
    match json with
    | .number (some (.integer n)) =>
      match range.member? n with
      | some member => .ok member
      | none => .error (.wrongValue (.integer n) range.name)
    | json => .error (.ofJson range.name json)
  | .text, json => readText json
  | .texts, json =>
    match json with
    | .array items => items.mapM readText
    | json => .error (.ofJson "a sequence" json)
  | .bytes, json =>
    match json with
    | .null => .ok []
    | json => do
      let s ← readText json
      (Base64.decode? s.toList).elim (.error .unreadable) .ok

def Leaf.writeJson : (leaf : Leaf) → leaf.Value → Json
  | .integer _, n => .ofInt n.val
  | .text, s => .ofText s
  | .texts, ss => .array (ss.map .ofText)
  | .bytes, bs => .ofText (String.ofList (Base64.encode bs))

/-! ## Records -/

section

variable {κ : Type} {V : κ → Type}

def Field.readJson (readValue : (kind : κ) → Json → Except Fault (V kind)) :
    (f : Field V) → Json → Except Fault f.Value
  | ⟨_, kind, .required⟩, json => readValue kind json
  | ⟨_, kind, .defaulted _⟩, json => readValue kind json
  | ⟨_, kind, .optional⟩, json =>
    match json with
    | .null => .ok none
    | json => (readValue kind json).map some
  | ⟨_, kind, .nullable⟩, json =>
    match json with
    | .null => .ok none
    | json => (readValue kind json).map some

/-- The value of a field that a list is too short for, given the fault of a short list. -/
def Field.absentFromList (fault : Fault) : (f : Field V) → Except Fault f.Value
  | ⟨_, _, .required⟩ => .error fault
  | ⟨_, _, .defaulted value⟩ => .ok value
  | ⟨_, _, .optional⟩ => .ok none
  | ⟨_, _, .nullable⟩ => .error fault

/-- Puts a member in its slot, if there is a field of its name and its slot is free. -/
def Slots.fill (readValue : (kind : κ) → Json → Except Fault (V kind)) :
    (fs : List (Field V)) → Slots fs → String → Json → Except Fault (Option (Slots fs))
  | [], (), _, _ => .ok none
  | f :: fs, (slot, slots), name, json =>
    if f.name = name then
      match slot with
      | some _ => .error (.duplicate name)
      | none => (f.readJson readValue json).map fun value => some (some value, slots)
    else (fill readValue fs slots name json).map (·.map fun slots => (slot, slots))

/-- Takes one member of an object in. A name that no field has is passed over with its value, which
only has to make sense as a text. -/
def Slots.takeMember (readValue : (kind : κ) → Json → Except Fault (V kind))
    (fs : List (Field V)) (slots : Slots fs) : Option String × Json → Except Fault (Slots fs)
  | (none, _) => .error .unreadable
  | (some name, json) =>
    match fill readValue fs slots name json with
    | .error fault => .error fault
    | .ok (some slots) => .ok slots
    | .ok none => if json.isWhole then .ok slots else .error .unreadable

/-- Reads a row from a list of values in order. -/
def readItems (readValue : (kind : κ) → Json → Except Fault (V kind)) (short : Nat → Fault)
    (long : Fault) : Nat → (fs : List (Field V)) → List Json → Except Fault (Row fs)
  | _, [], [] => .ok ()
  | _, [], _ :: _ => .error long
  | index, f :: fs, [] => do
    let value ← f.absentFromList (short index)
    let row ← readItems readValue short long (index + 1) fs []
    .ok (value, row)
  | index, f :: fs, item :: items => do
    let value ← f.readJson readValue item
    let row ← readItems readValue short long (index + 1) fs items
    .ok (value, row)

/-- How refusals name a record that is given as a list. -/
def Schema.asList (schema : Schema V) : String :=
  let count := schema.fields.length
  "struct " ++ schema.name ++ " with " ++ String.ofList (Text.digits count) ++
    (if count = 1 then " element" else " elements")

def Schema.readJson (form : Form) (readValue : (kind : κ) → Json → Except Fault (V kind))
    (schema : Schema V) : Json → Except Fault schema.Value
  | .object members => do
    let slots ← members.foldlM (Slots.takeMember readValue schema.fields)
      (Slots.empty schema.fields)
    slots.close schema.fields
  | .array items =>
    let long := match form with
      | .streamed => .unreadable
      | .settled => .wrongLength items.length "fewer elements in array"
    readItems readValue (.wrongLength · schema.asList) long 0 schema.fields items
  | json => .error (.ofJson ("struct " ++ schema.name) json)

def writeRow (writeValue : (kind : κ) → V kind → Json) :
    (fs : List (Field V)) → Row fs → List (String × Json)
  | [], () => []
  | ⟨name, kind, .required⟩ :: fs, (value, row) =>
    (name, writeValue kind value) :: writeRow writeValue fs row
  | ⟨name, kind, .defaulted _⟩ :: fs, (value, row) =>
    (name, writeValue kind value) :: writeRow writeValue fs row
  | ⟨name, kind, .optional⟩ :: fs, (value, row) =>
    (value.map fun value => (name, writeValue kind value)).toList ++ writeRow writeValue fs row
  | ⟨name, kind, .nullable⟩ :: fs, (value, row) =>
    (name, (value.map (writeValue kind)).getD .null) :: writeRow writeValue fs row

def Schema.writeJson (writeValue : (kind : κ) → V kind → Json) (schema : Schema V)
    (record : schema.Value) : Json :=
  .ofMembers (writeRow writeValue schema.fields record)

end

def Kind.readJson (form : Form) : (kind : Kind) → Json → Except Fault kind.Value
  | .leaf kind, json => kind.readJson json
  | .record schema, json => schema.readJson form Leaf.readJson json

def Kind.writeJson : (kind : Kind) → kind.Value → Json
  | .leaf kind, value => kind.writeJson value
  | .record schema, row => schema.writeJson Leaf.writeJson row

/-! ## Values of types with a schema -/

section

variable {α : Type} [Structured α]

/-- Reads a value of a type from a JSON value that has been read to the end. -/
def ofJson (json : Json) : Except Fault α :=
  ((Structured.shape α).readJson .settled (Kind.readJson .settled) json.settle).map
    Structured.ofRow

def toJson (x : α) : Json :=
  (Structured.shape α).writeJson Kind.writeJson (Structured.toRow x)

/-- Reads a value of a type from a JSON text. -/
def fromJsonText (text : String) : Except Fault α := do
  let document := Json.read text
  let record ← (Structured.shape α).readJson .streamed (Kind.readJson .streamed) document.value
  if document.complete then .ok (Structured.ofRow record) else .error .unreadable

def toJsonText (x : α) : String :=
  (toJson x).render

end

end TopicBroker.Record
