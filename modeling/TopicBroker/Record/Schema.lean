/-!
# Schemas

A schema names a record and lists its fields with their kinds. The type of the records is computed
from the schema, so that one reader and one writer for each format serve all records.

The definitions are stated for any kinds `κ` with values `V`. They are used twice: for records whose
fields are simple, and for records whose fields may be such records.
-/

namespace TopicBroker.Record

/-! ## Simple values -/

/-- A range of whole numbers, with the name that refusals give to it. -/
structure IntRange where
  name : String
  low : Int
  high : Int

/-- The whole numbers of a range. -/
abbrev IntRange.Member (range : IntRange) : Type :=
  { n : Int // range.low ≤ n ∧ n ≤ range.high }

/-- The number as a member of the range, if it is one. -/
def IntRange.member? (range : IntRange) (n : Int) : Option range.Member :=
  if h : range.low ≤ n ∧ n ≤ range.high then some ⟨n, h⟩ else none

namespace IntRange

def int64 : IntRange := ⟨"i64", -9223372036854775808, 9223372036854775807⟩

/-- The numbers below a bound. -/
def below (name : String) (bound : Nat) : IntRange := ⟨name, 0, (bound : Int) - 1⟩

abbrev nat16 : IntRange := below "u16" 65536

abbrev nat64 : IntRange := below "u64" 18446744073709551616

/-- Counts, which have 64 bits too. -/
abbrev count : IntRange := below "usize" 18446744073709551616

/-- A number below a bound, without its bound from below. -/
def toFin {name : String} {bound : Nat} (n : (below name bound).Member) : Fin bound :=
  ⟨n.val.toNat, by have := n.property; simp only [below] at this; omega⟩

def ofFin {name : String} {bound : Nat} (n : Fin bound) : (below name bound).Member :=
  ⟨n.val, by have := n.isLt; simp only [below]; omega⟩

@[simp] theorem toFin_ofFin {name : String} {bound : Nat} (n : Fin bound) :
    toFin (ofFin n : (below name bound).Member) = n := by
  simp [toFin, ofFin]

end IntRange

/-- The kinds of simple values. -/
inductive Leaf where
  | integer (range : IntRange)
  | text
  | texts
  | bytes

abbrev Leaf.Value : Leaf → Type
  | .integer range => range.Member
  | .text => String
  | .texts => List String
  | .bytes => List UInt8

/-! ## Fields and records -/

/-- Whether a field has to be given, and what it is if it is not. -/
inductive Presence (α : Type) where
  /-- The field has to be given. -/
  | required
  /-- The field has the given value if it is left out. -/
  | defaulted (value : α)
  /-- The field may be left out. -/
  | optional
  /-- The field may be left out of an object, but not of a list. -/
  | nullable

/-- A field of a record. -/
structure Field {κ : Type} (V : κ → Type) where
  name : String
  kind : κ
  presence : Presence (V kind)

abbrev Field.Value {κ : Type} {V : κ → Type} : Field V → Type
  | ⟨_, kind, .required⟩ => V kind
  | ⟨_, kind, .defaulted _⟩ => V kind
  | ⟨_, kind, .optional⟩ => Option (V kind)
  | ⟨_, kind, .nullable⟩ => Option (V kind)

/-- One value for each of the fields. -/
abbrev Row {κ : Type} {V : κ → Type} : List (Field V) → Type
  | [] => Unit
  | f :: fs => f.Value × Row fs

/-- At most one value for each of the fields, as they are found. -/
abbrev Slots {κ : Type} {V : κ → Type} : List (Field V) → Type
  | [] => Unit
  | f :: fs => Option f.Value × Slots fs

/-- No value for any of the fields. -/
def Slots.empty {κ : Type} {V : κ → Type} : (fs : List (Field V)) → Slots fs
  | [] => ()
  | _ :: fs => (none, Slots.empty fs)

/-- The name and the fields of a record. -/
structure Schema {κ : Type} (V : κ → Type) where
  name : String
  fields : List (Field V)

/-- The values of a schema: its records. -/
abbrev Schema.Value {κ : Type} {V : κ → Type} (schema : Schema V) : Type :=
  Row schema.fields

/-- Schemas with simple fields. -/
abbrev FlatSchema := Schema Leaf.Value

/-- The kinds of fields: simple ones and records with simple fields. -/
inductive Kind where
  | leaf (kind : Leaf)
  | record (schema : FlatSchema)

abbrev Kind.Value : Kind → Type
  | .leaf kind => kind.Value
  | .record schema => schema.Value

/-- Schemas whose fields may be records. -/
abbrev Shape := Schema Kind.Value

/-! ## Records of simple fields as records -/

abbrev Field.lift : Field Leaf.Value → Field Kind.Value
  | ⟨name, kind, .required⟩ => ⟨name, .leaf kind, .required⟩
  | ⟨name, kind, .defaulted value⟩ => ⟨name, .leaf kind, .defaulted value⟩
  | ⟨name, kind, .optional⟩ => ⟨name, .leaf kind, .optional⟩
  | ⟨name, kind, .nullable⟩ => ⟨name, .leaf kind, .nullable⟩

abbrev FlatSchema.lift (schema : FlatSchema) : Shape :=
  ⟨schema.name, schema.fields.map Field.lift⟩

def Field.liftValue : (f : Field Leaf.Value) → f.Value → f.lift.Value
  | ⟨_, _, .required⟩, value => value
  | ⟨_, _, .defaulted _⟩, value => value
  | ⟨_, _, .optional⟩, value => value
  | ⟨_, _, .nullable⟩, value => value

def Field.lowerValue : (f : Field Leaf.Value) → f.lift.Value → f.Value
  | ⟨_, _, .required⟩, value => value
  | ⟨_, _, .defaulted _⟩, value => value
  | ⟨_, _, .optional⟩, value => value
  | ⟨_, _, .nullable⟩, value => value

def liftRow : (fs : List (Field Leaf.Value)) → Row fs → Row (fs.map Field.lift)
  | [], () => ()
  | f :: fs, (value, row) => (f.liftValue value, liftRow fs row)

def lowerRow : (fs : List (Field Leaf.Value)) → Row (fs.map Field.lift) → Row fs
  | [], () => ()
  | f :: fs, (value, row) => (f.lowerValue value, lowerRow fs row)

@[simp] theorem Field.lowerValue_liftValue (f : Field Leaf.Value) (value : f.Value) :
    f.lowerValue (f.liftValue value) = value := by
  obtain ⟨_, _, _ | _ | _ | _⟩ := f <;> rfl

@[simp] theorem lowerRow_liftRow (fs : List (Field Leaf.Value)) (row : Row fs) :
    lowerRow fs (liftRow fs row) = row := by
  induction fs with
  | nil => rfl
  | cons f fs ih => simp [lowerRow, liftRow, ih]

/-! ## Types with a schema -/

/-- A type whose values are the records of a schema with simple fields. -/
class Flat (α : Type) where
  schema : FlatSchema
  toRow : α → schema.Value
  ofRow : schema.Value → α
  ofRow_toRow : ∀ x, ofRow (toRow x) = x := by intro x; rfl

/-- A type whose values are the records of a schema. -/
class Structured (α : Type) where
  shape : Shape
  toRow : α → shape.Value
  ofRow : shape.Value → α
  ofRow_toRow : ∀ x, ofRow (toRow x) = x := by intro x; rfl

instance {α : Type} [Flat α] : Structured α where
  shape := (Flat.schema α).lift
  toRow x := liftRow _ (Flat.toRow x)
  ofRow row := Flat.ofRow (lowerRow _ row)
  ofRow_toRow x := by simp [Flat.ofRow_toRow]

/-! ## Notions for stating schemas -/

abbrev Field.needed {κ : Type} {V : κ → Type} (name : String) (kind : κ) : Field V :=
  ⟨name, kind, .required⟩

/-- A field with a value for when it is left out. -/
abbrev Field.orElse {κ : Type} {V : κ → Type} (name : String) (kind : κ) (value : V kind) :
    Field V :=
  ⟨name, kind, .defaulted value⟩

/-- A field that may be left out. -/
abbrev Field.optional {κ : Type} {V : κ → Type} (name : String) (kind : κ) : Field V :=
  ⟨name, kind, .optional⟩

/-- A field that may be left out of an object. -/
abbrev Field.nullable {κ : Type} {V : κ → Type} (name : String) (kind : κ) : Field V :=
  ⟨name, kind, .nullable⟩

end TopicBroker.Record
