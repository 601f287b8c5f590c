import TopicBroker.Json.Basic
import TopicBroker.Binary64.Shortest

/-!
# Writing JSON

JSON texts without white space. Quotes, backslashes and control characters are escaped, all other
characters stand for themselves.
-/

namespace TopicBroker.Json

/-- Numbers that are not whole have at least one place after the point, and an exponent where the
leading digit is far from the point. -/
def floatLayout : Binary64.Layout where
  positional := some (-5, 15)
  pointZero := true

def hexDigit (n : Nat) : Char :=
  Nat.digitChar n

def escape (c : Char) : List Char :=
  match c with
  | '"' => ['\\', '"']
  | '\\' => ['\\', '\\']
  | '\n' => ['\\', 'n']
  | '\r' => ['\\', 'r']
  | '\t' => ['\\', 't']
  | '\x08' => ['\\', 'b']
  | '\x0c' => ['\\', 'f']
  | c =>
    if c.toNat < 0x20 then ['\\', 'u', '0', '0', hexDigit (c.toNat / 16), hexDigit (c.toNat % 16)]
    else [c]

def quote (s : String) : List Char :=
  '"' :: s.toList.flatMap escape ++ ['"']

/-- Texts with a mark between each and the next. -/
def separated (mark : Char) : List (List Char) → List Char
  | [] => []
  | [cs] => cs
  | cs :: rest => cs ++ mark :: separated mark rest

def Number.write : Number → List Char
  | .integer n => Text.decimal n
  | .float x => x.text floatLayout

mutual

/-- The text of a value. A part that has no value is written as `null`. -/
def write : Json → List Char
  | null | broken | number none | string none => ['n', 'u', 'l', 'l']
  | bool true => ['t', 'r', 'u', 'e']
  | bool false => ['f', 'a', 'l', 's', 'e']
  | number (some n) => n.write
  | string (some s) => quote s
  | array items => '[' :: separated ',' (writeItems items) ++ [']']
  | object members => '\x7b' :: separated ',' (writeMembers members) ++ ['\x7d']

def writeItems : List Json → List (List Char)
  | [] => []
  | item :: items => write item :: writeItems items

def writeMembers : List (Option String × Json) → List (List Char)
  | [] => []
  | (name, value) :: members =>
    (quote (name.getD "") ++ ':' :: write value) :: writeMembers members

end

def render (json : Json) : String :=
  String.ofList json.write

end TopicBroker.Json
