import TopicBroker.Binary64.Shortest
import TopicBroker.Record.Schema
import TopicBroker.Settings.Setting

/-!
# Records in settings

Records read from given settings. Values are converted where that makes sense: a number may be given
as a text, a text as a number, and a boolean as either. A refusal tells the key of the value.
-/

namespace TopicBroker

/-- Why settings do not hold the record expected. Each names the key of the value at fault. -/
inductive SettingFault where
  /-- The value cannot be converted. -/
  | wrongType (key : String)
  /-- The value is of a kind that is not looked into. -/
  | misplaced (key : String)
  deriving DecidableEq, Repr

namespace Setting

def largest : Nat := 18446744073709551615

/-- The number that a text stands for: one of the words for yes and no, or digits. -/
def naturalOf? (s : String) : Option Nat :=
  match String.ofList (s.toList.map Char.toLower) with
  | "true" | "on" | "yes" => some 1
  | "false" | "off" | "no" => some 0
  | _ =>
    let digits := match s.toList with
      | '+' :: cs => cs
      | cs => cs
    if digits.isEmpty ∨ !digits.all Char.isDigit then none
    else if Text.value digits ≤ largest then some (Text.value digits) else none

/-- The number that a value stands for. A number that is not whole goes to the nearest whole one in
range, a half away from zero. -/
def natural? : Setting → Option Nat
  | integer n => if 0 ≤ n then some n.toNat else none
  | boolean b => some b.toNat
  | float (.infinite negative) => some (if negative then 0 else largest)
  | float x => some (min (x.round?.getD 0).toNat largest)
  | text s => naturalOf? s
  | _ => none

/-- Numbers as texts are never written with an exponent. -/
def floatLayout : Binary64.Layout where
  positional := none
  pointZero := false

def text? : Setting → Option String
  | text s => some s
  | boolean b => some (if b then "true" else "false")
  | integer n => some (String.ofList (Text.decimal n))
  | float x => some (String.ofList (x.text floatLayout))
  | _ => none

end Setting

namespace Record

def memberKey (key name : String) : String :=
  if key.isEmpty then name else key ++ "." ++ name

def itemKey (key : String) (index : Nat) : String :=
  key ++ "[" ++ String.ofList (Text.digits index) ++ "]"

/-- The value, or else a fault of the wrong type. -/
def converted {α : Type} (key : String) (value : Option α) : Except SettingFault α :=
  value.elim (.error (.wrongType key)) .ok

def Leaf.readSetting (key : String) : (leaf : Leaf) → Setting → Except SettingFault leaf.Value
  | .integer range, setting =>
    converted key (setting.natural?.bind fun n => range.member? n)
  | .text, setting => converted key setting.text?
  | .texts, setting =>
    match setting with
    | .list items => items.zipIdx.mapM fun (item, i) => converted (itemKey key i) item.text?
    | _ => .error (.misplaced key)
  | .bytes, _ => .error (.misplaced key)

section

variable {κ : Type} {V : κ → Type}

/-- Reads the value of a field, or the value that it has when nothing is given. -/
def Field.readSetting (readValue : String → (kind : κ) → Setting → Except SettingFault (V kind))
    (key : String) : (f : Field V) → Setting → Except SettingFault f.Value
  | ⟨_, kind, .required⟩, setting => readValue key kind setting
  | ⟨_, kind, .defaulted value⟩, setting =>
    match setting with
    | .absent => .ok value
    | setting => readValue key kind setting
  | ⟨_, kind, .optional⟩, setting =>
    match setting with
    | .absent => .ok none
    | setting => (readValue key kind setting).map some
  | ⟨_, kind, .nullable⟩, setting =>
    match setting with
    | .absent => .ok none
    | setting => (readValue key kind setting).map some

def readSettingMembers
    (readValue : String → (kind : κ) → Setting → Except SettingFault (V kind)) (key : String)
    (setting : Setting) : (fs : List (Field V)) → Except SettingFault (Row fs)
  | [] => .ok ()
  | f :: fs => do
    let value ← f.readSetting readValue (memberKey key f.name) (setting.member f.name)
    let row ← readSettingMembers readValue key setting fs
    .ok (value, row)

/-- Reads a row from the items of a list, which must not be too short. -/
def readSettingItems
    (readValue : String → (kind : κ) → Setting → Except SettingFault (V kind)) (key : String) :
    Nat → (fs : List (Field V)) → List Setting → Except SettingFault (Row fs)
  | _, [], _ => .ok ()
  | _, _ :: _, [] => .error (.misplaced key)
  | index, f :: fs, item :: items => do
    let value ← f.readSetting readValue (itemKey key index) item
    let row ← readSettingItems readValue key (index + 1) fs items
    .ok (value, row)

def Schema.readSetting (readValue : String → (kind : κ) → Setting → Except SettingFault (V kind))
    (key : String) (schema : Schema V) : Setting → Except SettingFault schema.Value
  | .table members => readSettingMembers readValue key (.table members) schema.fields
  | .list items => readSettingItems readValue key 0 schema.fields items
  | _ => .error (.misplaced key)

end

def Kind.readSetting (key : String) : (kind : Kind) → Setting → Except SettingFault kind.Value
  | .leaf kind, setting => kind.readSetting key setting
  | .record schema, setting => schema.readSetting Leaf.readSetting key setting

def ofSetting {α : Type} [Structured α] (setting : Setting) : Except SettingFault α :=
  ((Structured.shape α).readSetting Kind.readSetting "" setting).map Structured.ofRow

end Record

end TopicBroker
