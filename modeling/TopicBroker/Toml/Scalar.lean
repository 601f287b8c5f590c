import TopicBroker.Json.Reader
import TopicBroker.Toml.Basic
import TopicBroker.Toml.Moment
import TopicBroker.Toml.Text

/-!
# Unquoted values in TOML

Booleans, numbers, dates and times. The longest run of characters that may stand in one is read as a
whole.
-/

namespace TopicBroker.Toml

/-! ## Digits -/

/-- A digit to a base. -/
def isDigitOf (base : Nat) (c : Char) : Bool :=
  (Json.hexDigit? c).any (· < base)

/-- Digits to a base without the underscores between them. -/
def ungroup? (base : Nat) : List Char → Option (List Char)
  | [] => none
  | [c] => if isDigitOf base c then some [c] else none
  | c :: '_' :: rest => if isDigitOf base c then (ungroup? base rest).map (c :: ·) else none
  | c :: rest => if isDigitOf base c then (ungroup? base rest).map (c :: ·) else none

/-- Decimal digits without the underscores between them, of which the first is a zero only if it is
the only one. -/
def ungroupWhole? (cs : List Char) : Option (List Char) :=
  match ungroup? 10 cs with
  | some ('0' :: _ :: _) => none
  | other => other

def takeSign : List Char → Bool × List Char
  | '-' :: rest => (true, rest)
  | '+' :: rest => (false, rest)
  | cs => (false, cs)

/-! ## Numbers -/

def magnitude (base : Nat) (digits : List Char) : Nat :=
  digits.foldl (fun n c => base * n + (Json.hexDigit? c).getD 0) 0

def readBased? (base : Nat) (cs : List Char) : Option Int :=
  (ungroup? base cs).map fun digits => (magnitude base digits : Int)

/-- Reads a whole number, which has to fit 64 bits. -/
def readInteger? (cs : List Char) : Option Int := do
  let n ← match cs with
    | '0' :: 'x' :: cs => readBased? 16 cs
    | '0' :: 'o' :: cs => readBased? 8 cs
    | '0' :: 'b' :: cs => readBased? 2 cs
    | cs =>
      let (negative, cs) := takeSign cs
      (ungroupWhole? cs).map fun digits =>
        if negative then -(magnitude 10 digits : Int) else magnitude 10 digits
  if -9223372036854775808 ≤ n ∧ n ≤ 9223372036854775807 then some n else none

def isGrouped (c : Char) : Bool :=
  c.isDigit || c == '_'

/-- Reads the places behind the point, if there is one. -/
def readPlaces? : List Char → Option (Option (List Char) × List Char)
  | '.' :: cs =>
    let (run, rest) := cs.span isGrouped
    (ungroup? 10 run).map fun digits => (some digits, rest)
  | cs => some (none, cs)

/-- Reads the exponent to the end, if there is one. -/
def readExponent? : List Char → Option (Option Int)
  | [] => some none
  | e :: cs =>
    if e = 'e' ∨ e = 'E' then
      let (negative, cs) := takeSign cs
      (ungroup? 10 cs).map fun digits =>
        some (if negative then -(magnitude 10 digits : Int) else magnitude 10 digits)
    else none

/-- Reads a number with places behind the point, with an exponent, or with both. It has to be in
range. -/
def readFloat? (cs : List Char) : Option Binary64 :=
  let (negative, cs) := takeSign cs
  match cs with
  | ['i', 'n', 'f'] => some (.infinite negative)
  | ['n', 'a', 'n'] => some .notANumber
  | cs => do
    let (run, rest) := cs.span isGrouped
    let whole ← ungroupWhole? run
    let (places, rest) ← readPlaces? rest
    let exponent ← readExponent? rest
    if places.isNone ∧ exponent.isNone then none
    else
      let digits := places.getD []
      let x := Binary64.ofScientific negative (magnitude 10 (whole ++ digits))
        (exponent.getD 0 - digits.length)
      if x = .infinite negative then none else some x

/-! ## Values -/

/-- A character that may stand in an unquoted value. -/
def isUnquoted (c : Char) : Bool :=
  c.isAlphanum || c == '+' || c == '-' || c == '.' || c == '_' || c == ':'

def unquoted? (cs : List Char) : Option Toml :=
  match cs with
  | ['t', 'r', 'u', 'e'] => some (.boolean true)
  | ['f', 'a', 'l', 's', 'e'] => some (.boolean false)
  | cs =>
    match Moment.text? cs, readInteger? cs, readFloat? cs with
    | some m, _, _ => some (.moment (String.ofList m))
    | none, some n, _ => some (.integer n)
    | none, none, some x => some (.float x)
    | none, none, none => none

/-- The run of characters at the front that may stand in one unquoted value. A blank between a date
and a time is part of it. -/
def takeUnquoted (cs : List Char) : List Char × List Char :=
  let (run, rest) := cs.span isUnquoted
  match Moment.readDate? run, rest with
  | some (_, []), ' ' :: a :: b :: ':' :: more =>
    if a.isDigit ∧ b.isDigit then
      let (time, rest) := (a :: b :: ':' :: more).span isUnquoted
      (run ++ ' ' :: time, rest)
    else (run, rest)
  | _, _ => (run, rest)

def readUnquoted? (cs : List Char) : Option (Toml × List Char) :=
  let (run, rest) := takeUnquoted cs
  (unquoted? run).map (·, rest)

end TopicBroker.Toml
