import TopicBroker.Toml.Basic

/-!
# Tables under construction

A document gives its tables piece by piece: by headers, by members with dotted keys, and by headers
of lists of tables. No piece may give a member twice or reopen a table that is complete. How a table
came to be decides what may be added to it.
-/

namespace TopicBroker.Toml

/-- How a table came to be. -/
inductive Origin where
  /-- By its own header. -/
  | header
  /-- On the way to another table's header. -/
  | passage
  /-- By a dotted key. -/
  | dotted
  deriving DecidableEq, Repr

/-- A member of a table under construction. The last of a list of tables is the one that may
grow. -/
inductive Node where
  | value (v : Toml)
  | table (origin : Origin) (members : List (String × Node))
  | tables (elements : List (List (String × Node)))

/-- Puts a member under its name, in the place of one that is there. -/
def put {α : Type} (name : String) (value : α) : List (String × α) → List (String × α)
  | [] => [(name, value)]
  | (other, kept) :: members =>
    if name = other then (name, value) :: members else (other, kept) :: put name value members

namespace Node

abbrev Members := List (String × Node)

/-- Changes the table under a path, making the tables on the way that are not there yet. A dotted
key does not enter a table that has a header. -/
def enter (dotted : Bool) (change : Origin → Members → Option Members) :
    List String → Origin → Members → Option Members
  | [], origin, members => change origin members
  | name :: path, _, members =>
    match members.lookup name with
    | none => do
      let origin := if dotted then .dotted else .passage
      let inner ← enter dotted change path origin []
      some (put name (.table origin inner) members)
    | some (.table origin inner) =>
      if dotted ∧ origin = .header then none
      else do
        let inner ← enter dotted change path origin inner
        some (put name (.table origin inner) members)
    | some (.tables elements) => do
      let inner ← enter dotted change path .header (← elements.getLast?)
      some (put name (.tables (elements.dropLast ++ [inner])) members)
    | some (.value _) => none

/-- Adds a value under a dotted key. A table with a header takes no value but by a key that starts
from it. -/
def assign (path : List String) (name : String) (v : Toml) : Origin → Members → Option Members :=
  enter true (fun origin members =>
    if path ≠ [] ∧ origin = .header then none
    else if (members.lookup name).isSome then none
    else some (put name (.value v) members)) path

/-- Adds a table by its header, or the header of a table that was only passed so far. -/
def openTable (path : List String) (name : String) : Members → Option Members :=
  enter false (fun _ members =>
    match members.lookup name with
    | none => some (put name (.table .header []) members)
    | some (.table .passage inner) => some (put name (.table .header inner) members)
    | some _ => none) path .header

def appendTable (path : List String) (name : String) : Members → Option Members :=
  enter false (fun _ members =>
    match members.lookup name with
    | none => some (put name (.tables [[]]) members)
    | some (.tables elements) => some (put name (.tables (elements ++ [[]])) members)
    | some _ => none) path .header

mutual

def finish : Node → Toml
  | value v => v
  | table _ members => .table (finishMembers members)
  | tables elements => .array (finishTables elements)

def finishMembers : List (String × Node) → List (String × Toml)
  | [] => []
  | (name, node) :: members => (name, finish node) :: finishMembers members

def finishTables : List (List (String × Node)) → List Toml
  | [] => []
  | members :: elements => .table (finishMembers members) :: finishTables elements

end

end Node

/-! ## Statements -/

/-- A piece of a document. Paths are given with their last name apart. -/
inductive Statement where
  | assign (path : List String) (name : String) (v : Toml)
  | openTable (path : List String) (name : String)
  | appendTable (path : List String) (name : String)

/-- The tables of a document so far, and the path of the one whose members follow. -/
structure Draft where
  members : Node.Members
  current : List String

def Draft.add? (draft : Draft) : Statement → Option Draft
  | .assign path name v => do
    let members ← Node.enter false (Node.assign path name v) draft.current .header draft.members
    some { draft with members }
  | .openTable path name => do
    let members ← Node.openTable path name draft.members
    some ⟨members, path ++ [name]⟩
  | .appendTable path name => do
    let members ← Node.appendTable path name draft.members
    some ⟨members, path ++ [name]⟩

/-- The members of the table that pieces make up, unless they contradict each other. -/
def ofStatements? (statements : List Statement) : Option (List (String × Toml)) := do
  let draft ← statements.foldlM Draft.add? ⟨[], []⟩
  some (Node.finishMembers draft.members)

end TopicBroker.Toml
