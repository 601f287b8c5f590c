import TopicBroker.Binary64.Basic

/-!
# JSON values

A value of JSON as far as its text makes sense. Where a text stops making sense the value has a
`broken` part, so that a reader which walks the value in order meets faults in the order of the
text. Members keep their order and may share a name.
-/

namespace TopicBroker

/-- A number of a JSON text: a whole one, or the nearest binary64 number. -/
inductive Json.Number where
  | integer (n : Int)
  | float (x : Binary64)
  deriving DecidableEq, Repr

/-- A JSON value. A number without a value is too large; a text without a value, which a member's
name may be too, has half of a surrogate pair in it. -/
inductive Json where
  | null
  | bool (b : Bool)
  | number (n : Option Json.Number)
  | string (s : Option String)
  | array (items : List Json)
  | object (members : List (Option String × Json))
  | broken
  deriving Repr, Inhabited

namespace Json

def ofText (s : String) : Json := string (some s)

def ofInt (n : Int) : Json := number (some (.integer n))

def ofMembers (members : List (String × Json)) : Json :=
  object (members.map fun (name, value) => (some name, value))

mutual

/-- The text makes sense to the end. Numbers that are too large and unpaired surrogates are no
matter here: they only stop a reader that wants their value. -/
def isWhole : Json → Bool
  | broken => false
  | array items => allWhole items
  | object members => allMembersWhole members
  | _ => true

def allWhole : List Json → Bool
  | [] => true
  | item :: items => isWhole item && allWhole items

def allMembersWhole : List (Option String × Json) → Bool
  | [] => true
  | (_, value) :: members => isWhole value && allMembersWhole members

end

/-- The value of the last member with the given name. -/
def member? (name : String) : Json → Option Json
  | object members => (members.findRev? (·.1 == some name)).map (·.2)
  | _ => none

/-- Puts a member in front of the first one with a later name, in the place of one with the same
name. -/
def insertMember (name : Option String) (value : Json) :
    List (Option String × Json) → List (Option String × Json)
  | [] => [(name, value)]
  | (other, kept) :: members =>
    if name = other then (name, value) :: members
    else if (name.getD "") < (other.getD "") then (name, value) :: (other, kept) :: members
    else (other, kept) :: insertMember name value members

mutual

/-- The value with its members ordered by name and the last one of each name kept, as a value that
has been read to the end is held. -/
def settle : Json → Json
  | array items => array (settleItems items)
  | object members => object (settleMembers members)
  | json => json

def settleItems : List Json → List Json
  | [] => []
  | item :: items => settle item :: settleItems items

/-- Settles every member; a later one goes in the place of an earlier one of its name. -/
def settleMembers : List (Option String × Json) → List (Option String × Json)
  | [] => []
  | (name, value) :: members =>
    let rest := settleMembers members
    if rest.any (·.1 = name) then rest else insertMember name (settle value) rest

end

end Json

end TopicBroker
