import TopicBroker.Text.Digits
import TopicBroker.Toml.Table

/-!
# Given settings

The values that the sources of settings give under their keys, before it is known what they should
be. A source is laid over another one key by key: tables are joined, anything else is replaced.
-/

namespace TopicBroker

/-- A value that a source gives. -/
inductive Setting where
  /-- Nothing: what stands before a given place of a list. -/
  | absent
  | boolean (b : Bool)
  | integer (n : Int)
  | float (x : Binary64)
  | text (s : String)
  | list (items : List Setting)
  | table (members : List (String × Setting))
  deriving Inhabited

namespace Setting

/-- The members of a table; other values have none. -/
def members : Setting → List (String × Setting)
  | table ms => ms
  | _ => []

/-- The items of a list; other values have none. -/
def items : Setting → List Setting
  | list xs => xs
  | _ => []

def isAbsent : Setting → Bool
  | absent => true
  | _ => false

def member (setting : Setting) (name : String) : Setting :=
  (setting.members.lookup name).getD absent

mutual

/-- A value of a document as a setting. Dates and times are texts. -/
def ofToml : Toml → Setting
  | .boolean b => boolean b
  | .integer n => integer n
  | .float x => float x
  | .text s | .moment s => text s
  | .array xs => list (ofTomlItems xs)
  | .table ms => table (ofTomlMembers ms)

def ofTomlItems : List Toml → List Setting
  | [] => []
  | x :: xs => ofToml x :: ofTomlItems xs

def ofTomlMembers : List (String × Toml) → List (String × Setting)
  | [] => []
  | (name, x) :: ms => (name, ofToml x) :: ofTomlMembers ms

end

/-! ## Laying one over the other -/

mutual

/-- Lays a value over another one. A table without members takes nothing away that is there. -/
def lay : Setting → Setting → Setting
  | table ms, base =>
    if ms.isEmpty && !base.isAbsent then base else table (layMembers ms base.members)
  | setting, _ => setting

def layMembers : List (String × Setting) → List (String × Setting) → List (String × Setting)
  | [], base => base
  | (name, setting) :: ms, base =>
    layMembers ms (Toml.put name (lay setting ((base.lookup name).getD absent)) base)

end

/-! ## Paths -/

/-- A step from a value to a part of it. -/
inductive Step where
  | name (s : String)
  /-- The place of a list; negative numbers count from its end. -/
  | place (i : Int)
  deriving DecidableEq, Repr

def isNameChar (c : Char) : Bool :=
  c.isAlphanum || c == '_' || c == '-'

/-- A blank that may stand in brackets. -/
def isBlank (c : Char) : Bool :=
  c == ' ' || c == '\t'

/-- Reads a whole number with blanks around it, up to a closing bracket. It has to fit 64 bits. -/
def readPlace? (cs : List Char) : Option (Int × List Char) :=
  let (negative, cs) := match cs.dropWhile isBlank with
    | '-' :: cs => (true, cs)
    | cs => (false, cs)
  match cs.span Char.isDigit with
  | ([], _) => none
  | (run, rest) =>
    let i := if negative then -(Text.value run : Int) else Text.value run
    match rest.dropWhile isBlank with
    | ']' :: rest =>
      if -9223372036854775808 ≤ i ∧ i ≤ 9223372036854775807 then some (i, rest) else none
    | _ => none

/-- Reads the steps behind the first name of a path, with fuel for every character. -/
def readSteps? : Nat → List Char → Option (List Step)
  | _, [] => some []
  | 0, _ => none
  | fuel + 1, '.' :: cs =>
    match cs.span isNameChar with
    | ([], _) => none
    | (run, rest) => (readSteps? fuel rest).map (.name (String.ofList run) :: ·)
  | fuel + 1, '[' :: cs => do
    let (i, rest) ← readPlace? cs
    (readSteps? fuel rest).map (.place i :: ·)
  | _ + 1, _ => none

/-- The path that a key stands for: names with dots between them and places in brackets. A key of
another form is a name as a whole. -/
def pathOf (key : String) : List Step :=
  let cs := key.toList
  match cs.span isNameChar with
  | ([], _) => [.name key]
  | (run, rest) =>
    match readSteps? rest.length rest with
    | some steps => .name (String.ofList run) :: steps
    | none => [.name key]

/-- Changes the item at a place of a list. The list grows if it is too short. -/
def atPlace (i : Int) (change : Setting → Setting) (items : List Setting) : List Setting :=
  let lead := (-(i + items.length)).toNat
  let items := if i < 0 then List.replicate lead absent ++ items else items
  let index := (if i < 0 then i + items.length else i).toNat
  let items := items ++ List.replicate (index + 1 - items.length) absent
  items.modify index change

/-- Lays a value over the part of another one that a path leads to. What stands in the way is
replaced. -/
def layAt (setting : Setting) : List Step → Setting → Setting
  | [], base => lay setting base
  | .name name :: steps, base =>
    table (Toml.put name (layAt setting steps (base.member name)) base.members)
  | .place i :: steps, base => list (atPlace i (layAt setting steps) base.items)

/-- Lays what a source gives under its keys over a value. -/
def layAll (source : List (String × Setting)) (base : Setting) : Setting :=
  source.foldl (fun base (key, setting) => layAt setting (pathOf key) base) base

end Setting

end TopicBroker
