import TopicBroker.Settings.Setting

/-!
# Settings from the environment

Variables whose names start with a given word give settings: two underscores in the rest of the name
stand between the names of a path, and capital letters count as small ones. A value is taken for a
boolean, a whole number or another number if it can be, and else for a text.
-/

namespace TopicBroker.Environment

def start : List Char := ['i', 'm', 'q', '_']

/-- The small letter of an ASCII letter; the sign of the unit kelvin is a capital `k`. -/
def small (c : Char) : Char :=
  if c = '\u212a' then 'k' else c.toLower

/-- The key of a variable's name without its start. -/
def keyOf : List Char → List Char
  | '_' :: '_' :: rest => '.' :: keyOf rest
  | c :: rest => c :: keyOf rest
  | [] => []

/-- The key that a variable gives a setting for, if it gives one. -/
def key? (name : String) : Option String :=
  let name := name.toList.map small
  if start.isPrefixOf name then some (String.ofList (keyOf (name.drop start.length))) else none

/-! ## Values -/

def takeSign : List Char → Bool × List Char
  | '-' :: cs => (true, cs)
  | '+' :: cs => (false, cs)
  | cs => (false, cs)

def integer? (cs : List Char) : Option Int :=
  let (negative, digits) := takeSign cs
  if digits.isEmpty ∨ !digits.all Char.isDigit then none
  else
    let n : Int := if negative then -(Text.value digits : Int) else Text.value digits
    if -9223372036854775808 ≤ n ∧ n ≤ 9223372036854775807 then some n else none

/-- The exponent that a text is to its end; without a text it is zero. -/
def exponent? : List Char → Option Int
  | [] => some 0
  | e :: cs =>
    let (negative, digits) := takeSign cs
    if (e = 'e' ∨ e = 'E') ∧ !digits.isEmpty ∧ digits.all Char.isDigit then
      some (if negative then -(Text.value digits : Int) else Text.value digits)
    else none

/-- The number that a text is: infinite, or none at all, or digits with a point somewhere or
nowhere and an exponent or none. -/
def float? (cs : List Char) : Option Binary64 :=
  let (negative, cs) := takeSign cs
  match String.ofList (cs.map small) with
  | "inf" | "infinity" => some (.infinite negative)
  | "nan" => some .notANumber
  | _ => do
    let (whole, rest) := cs.span Char.isDigit
    let (places, rest) := match rest with
      | '.' :: rest => rest.span Char.isDigit
      | rest => ([], rest)
    let e ← exponent? rest
    if whole.isEmpty ∧ places.isEmpty then none
    else some (Binary64.ofScientific negative (Text.value (whole ++ places)) (e - places.length))

def listKey : String := "storage.seed_topics"

def splitCommas : List Char → List (List Char)
  | [] => [[]]
  | c :: cs =>
    match splitCommas cs with
    | [] => [[c]]
    | part :: parts => if c = ',' then [] :: part :: parts else (c :: part) :: parts

def settingOf (key value : String) : Setting :=
  let cs := value.toList
  match String.ofList (cs.map small), integer? cs, float? cs with
  | "true", _, _ => .boolean true
  | "false", _, _ => .boolean false
  | _, some n, _ => .integer n
  | _, none, some x => .float x
  | _, none, none =>
    if key = listKey then .list ((splitCommas cs).map fun part => .text (String.ofList part))
    else .text value

def settings (environment : List (String × String)) : List (String × Setting) :=
  environment.filterMap fun (name, value) =>
    (key? name).map fun key => (key, settingOf key value)

def names : List String :=
  ["IMQ_SERVER__HOST", "IMQ_SERVER__PORT", "IMQ_SERVER__ACCEPT_TIMEOUT_SECS",
    "IMQ_SERVER__SHUTDOWN_GRACE_SECS", "IMQ_POOLS__PUBLISHER_WORKERS",
    "IMQ_POOLS__SUBSCRIBER_WORKERS", "IMQ_POOLS__PUBLISHER_PORT_START",
    "IMQ_POOLS__PUBLISHER_PORT_END", "IMQ_POOLS__SUBSCRIBER_PORT_START",
    "IMQ_POOLS__SUBSCRIBER_PORT_END", "IMQ_BROKER__MESSAGE_TTL_SECS",
    "IMQ_BROKER__MAILBOX_CAPACITY", "IMQ_STORAGE__PATH", "IMQ_STORAGE__SEED_TOPICS"]

end TopicBroker.Environment
