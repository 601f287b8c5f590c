import TopicBroker.Json.Reader
import TopicBroker.Xml.Token

/-!
# References in XML

A reference stands for a character: by one of five names, or by its number. A text with a reference
to anything else cannot be read.
-/

namespace TopicBroker.Xml

/-- The value of a text of digits in a base, if it is one. -/
def digitsValue? (base : Nat) (cs : List Char) : Option Nat :=
  if cs.isEmpty then none
  else cs.foldlM (fun n c => do
    let d ← Json.hexDigit? c
    if d < base then some (n * base + d) else none) 0

/-- The character with a number, which has to be a character other than the null character. -/
def charOf? (n : Nat) : Option Char :=
  if n ≠ 0 ∧ n.isValidChar then some (Char.ofNat n) else none

def resolve? (name : List Char) : Option Char :=
  match name with
  | '#' :: 'x' :: cs => (digitsValue? 16 cs).bind charOf?
  | '#' :: cs => (digitsValue? 10 cs).bind charOf?
  | ['l', 't'] => some '<'
  | ['g', 't'] => some '>'
  | ['a', 'm', 'p'] => some '&'
  | ['a', 'p', 'o', 's'] => some '\''
  | ['q', 'u', 'o', 't'] => some '"'
  | _ => none

/-- Resolves the references in a text. The first argument holds the name that is being read, in
reverse. -/
def unescapeFrom? : Option (List Char) → List Char → Option (List Char)
  | none, [] => some []
  | none, '&' :: cs => unescapeFrom? (some []) cs
  | none, c :: cs => (unescapeFrom? none cs).map (c :: ·)
  | some name, ';' :: cs => do
    let c ← resolve? name.reverse
    let rest ← unescapeFrom? none cs
    some (c :: rest)
  | some _, '&' :: _ => none
  | some name, c :: cs => unescapeFrom? (some (c :: name)) cs
  | some _, [] => none

def unescape? (raw : List Char) : Option (List Char) :=
  unescapeFrom? none raw

end TopicBroker.Xml
