import TopicBroker.Json.Basic
import TopicBroker.Text.Digits

/-!
# Numbers in JSON texts

A number literal and the number it stands for. Whole numbers are exact if they fit 64 bits. Any
other literal is a binary64 number: the first digits that fit 64 bits, rounded once, and then
scaled by a power of ten, rounded again.
-/

namespace TopicBroker.Json

open Text

/-- The parts of a number literal. -/
structure Literal where
  negative : Bool
  whole : List Char
  fraction : Option (List Char)
  exponent : Option (Bool × List Char)

/-- The digits at the front, of which there has to be one. -/
def readDigits? (cs : List Char) : Option (List Char × List Char) :=
  match cs.span Char.isDigit with
  | ([], _) => none
  | (run, rest) => some (run, rest)

/-- The digits before the point, which start with a zero only if they are one. -/
def readWhole? (cs : List Char) : Option (List Char × List Char) :=
  match readDigits? cs with
  | some ('0' :: _ :: _, _) => none
  | other => other

/-- The point and the digits after it, if there is a point. -/
def readFraction? : List Char → Option (Option (List Char) × List Char)
  | '.' :: cs => (readDigits? cs).map fun (run, rest) => (some run, rest)
  | cs => some (none, cs)

/-- The exponent, if there is one; it is negative if the flag is set. -/
def readExponent? : List Char → Option (Option (Bool × List Char) × List Char)
  | 'e' :: cs | 'E' :: cs =>
    let (negative, cs) := match cs with
      | '-' :: cs => (true, cs)
      | '+' :: cs => (false, cs)
      | cs => (false, cs)
    (readDigits? cs).map fun (run, rest) => (some (negative, run), rest)
  | cs => some (none, cs)

def readLiteral? (cs : List Char) : Option (Literal × List Char) := do
  let (negative, cs) := match cs with
    | '-' :: cs => (true, cs)
    | cs => (false, cs)
  let (whole, cs) ← readWhole? cs
  let (fraction, cs) ← readFraction? cs
  let (exponent, cs) ← readExponent? cs
  some (⟨negative, whole, fraction, exponent⟩, cs)

/-- One above the largest number of 64 bits. -/
def wordLimit : Nat := 18446744073709551616

/-- Adds digits to a number as long as it fits 64 bits; the digits that are left over follow. -/
def takeDigits (n : Nat) : List Char → Nat × List Char
  | [] => (n, [])
  | c :: cs =>
    let next := 10 * n + value [c]
    if next < wordLimit then takeDigits next cs else (n, c :: cs)

/-- Scales a number by a power of ten in steps of at most 308 places. There is no answer if the
number grows too large. -/
def scale : Nat → Binary64 → Int → Option Binary64
  | steps, x, e =>
    if e < -308 then
      match steps with
      | 0 => some x
      | steps + 1 => if x.isZero then some x else scale steps (x.overPowerOfTen 308) (e + 308)
    else if e < 0 then some (x.overPowerOfTen (-e).toNat)
    else if 308 < e then if x.isZero then some x else none
    else
      match x.timesPowerOfTen e.toNat with
      | .infinite _ => none
      | y => some y

/-- The largest exponent that is counted. -/
def exponentLimit : Nat := 2147483647

/-- The binary64 number of a significand of 64 bits and a power of ten. Two steps down bring any
significand to zero. -/
def scaled (negative : Bool) (significand : Nat) (e : Int) : Option Binary64 :=
  scale 3 (Binary64.ofQuotient negative significand 1) e

/-- The number that a literal stands for, unless it is too large. Zero with a minus sign is no
whole number. -/
def Literal.number? (l : Literal) : Option Number :=
  let (significand, dropped) := takeDigits 0 l.whole
  match l.fraction, l.exponent with
  | none, none =>
    if dropped.isEmpty then
      if !l.negative then some (.integer significand)
      else if significand = 0 ∨ 9223372036854775808 < significand then
        some (.float (Binary64.ofQuotient true significand 1))
      else some (.integer (-significand))
    else (scaled l.negative significand dropped.length).map .float
  | fraction, exponent =>
    let places := fraction.getD []
    let (significand, unused) := takeDigits significand places
    let start : Int := (dropped.length : Int) - (places.length - unused.length : Nat)
    match exponent with
    | none => (scaled l.negative significand start).map .float
    | some (down, run) =>
      let e := value run
      if exponentLimit < e then
        if significand ≠ 0 ∧ !down then none
        else some (.float (Binary64.ofQuotient l.negative 0 1))
      else (scaled l.negative significand (if down then start - e else start + e)).map .float

/-- Reads a number; one that is too large has no value. -/
def readNumber? (cs : List Char) : Option (Option Number × List Char) :=
  (readLiteral? cs).map fun (l, rest) => (l.number?, rest)

end TopicBroker.Json
