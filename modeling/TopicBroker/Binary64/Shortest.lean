import TopicBroker.Binary64.Basic
import TopicBroker.Text.Digits

/-!
# Shortest decimal texts

A binary64 number is written with the fewest decimal digits that read back to it. `shortest` finds
the digits in exact arithmetic; a `Layout` says how they are set out.
-/

namespace TopicBroker.Binary64

/-- A positive decimal number `digits * 10 ^ exponent`. -/
structure Decimal where
  digits : Nat
  exponent : Int
  deriving DecidableEq, Repr

/-- `a * 10 ^ j ≤ b * 2 ^ q`, or the strict comparison. -/
def decimalBelow (strict : Bool) (a : Nat) (j : Int) (b : Nat) (q : Int) : Bool :=
  let left := (a * tenTo j.toNat) <<< (-q).toNat
  let right := (b * tenTo (-j).toNat) <<< q.toNat
  if strict then left < right else left ≤ right

/-- `b * 2 ^ q ≤ a * 10 ^ j`, or the strict comparison. -/
def decimalAbove (strict : Bool) (a : Nat) (j : Int) (b : Nat) (q : Int) : Bool :=
  let left := (a * tenTo j.toNat) <<< (-q).toNat
  let right := (b * tenTo (-j).toNat) <<< q.toNat
  if strict then right < left else right ≤ left

/-- The decimal number rounds to `m * 2 ^ q`. The numbers that do lie between the middles to the
two neighbours, which belong to the even one; below a power of two the neighbour is closer. -/
def readsBack (m : Nat) (q : Int) (d : Decimal) : Bool :=
  let low := if m = 1 <<< 52 ∧ leastExponent < q then 4 * m - 1 else 4 * m - 2
  let odd := m % 2 == 1
  decimalAbove odd d.digits d.exponent low (q - 2) &&
    decimalBelow odd d.digits d.exponent (4 * m + 2) (q - 2)

/-- The exponent of the leading decimal digit of `m * 2 ^ q`, for positive `m`. -/
def leadingExponent (m : Nat) (q : Int) : Int :=
  let num := m <<< q.toNat
  let den := 1 <<< (-q).toNat
  if den ≤ num then ((Text.digits (num / den)).length : Int) - 1
  else
    let k := (Text.digits (den / num)).length
    if den ≤ num * tenTo (k - 1) then -((k : Int) - 1) else -(k : Int)

/-- The neighbours of `m * 2 ^ q` among the decimal numbers of a given number of digits. -/
def neighbours (m : Nat) (q : Int) (count : Nat) : Decimal × Decimal :=
  let exponent := leadingExponent m q - (count : Int) + 1
  let below := (m * tenTo (-exponent).toNat) <<< q.toNat / tenTo exponent.toNat <<< (-q).toNat
  (⟨below, exponent⟩, ⟨below + 1, exponent⟩)

/-- The lower neighbour is closer to `m * 2 ^ q` than the upper one, or as close and even. -/
def lowerIsCloser (m : Nat) (q : Int) (low : Decimal) : Bool :=
  let middle := 2 * low.digits + 1
  decimalAbove (low.digits % 2 == 1) middle low.exponent (2 * m) q

/-- The better of the two neighbours with a given number of digits, if one of them reads back. -/
def withDigits? (m : Nat) (q : Int) (count : Nat) : Option Decimal :=
  let (low, high) := neighbours m q count
  match readsBack m q low, readsBack m q high with
  | true, true => some (if lowerIsCloser m q low then low else high)
  | true, false => some low
  | false, true => some high
  | false, false => none

/-- Moves the zeros at the end of the digits into the exponent. -/
def Decimal.strip : Nat → Decimal → Decimal
  | 0, d => d
  | fuel + 1, d =>
    if d.digits % 10 = 0 then strip fuel ⟨d.digits / 10, d.exponent + 1⟩ else d

/-- The shortest decimal number that rounds to `m * 2 ^ q`, for positive `m`. -/
def shortest (m : Nat) (q : Int) : Decimal :=
  let found := (List.range 17).findSome? fun n => withDigits? m q (n + 1)
  (found.getD (neighbours m q 17).1).strip 17

/-- How the digits of a number are set out: the leading exponents that are written positionally
(all of them, if there are no bounds), and whether a whole number ends in `.0`. -/
structure Layout where
  positional : Option (Int × Int)
  pointZero : Bool

/-- The digits with the decimal point where it belongs. -/
def positionalText (pointZero : Bool) (ds : List Char) (exponent : Int) : List Char :=
  if 0 ≤ exponent then
    ds ++ List.replicate exponent.toNat '0' ++ (if pointZero then ['.', '0'] else [])
  else
    let places := (-exponent).toNat
    if places < ds.length then ds.take (ds.length - places) ++ '.' :: ds.drop (ds.length - places)
    else '0' :: '.' :: List.replicate (places - ds.length) '0' ++ ds

/-- The digits with the point behind the first, and a signed exponent. -/
def scientificText (ds : List Char) (leading : Int) : List Char :=
  let point := match ds with
    | [] => []
    | [d] => [d]
    | d :: rest => d :: '.' :: rest
  point ++ 'e' :: (if leading < 0 then '-' else '+') :: Text.digits leading.natAbs

/-- The text of a number in a layout. -/
def text (layout : Layout) : Binary64 → List Char
  | notANumber => ['N', 'a', 'N']
  | infinite negative => (if negative then ['-'] else []) ++ ['i', 'n', 'f']
  | finite negative m q =>
    let sign := if negative then ['-'] else []
    if m = 0 then sign ++ '0' :: (if layout.pointZero then ['.', '0'] else [])
    else
      let d := shortest m q
      let ds := Text.digits d.digits
      let leading := d.exponent + ds.length - 1
      match layout.positional with
      | none => sign ++ positionalText layout.pointZero ds d.exponent
      | some (low, high) =>
        if low ≤ leading ∧ leading ≤ high then
          sign ++ positionalText layout.pointZero ds d.exponent
        else sign ++ scientificText ds leading

end TopicBroker.Binary64
