import TopicBroker.Text.Digits

/-!
# Numbers of 64 binary digits

The numbers m · 2^q of the binary64 format, and the nearest of them to a given quotient. They occur
where a text gives a number that is not a whole one: in refusals of such a number and in settings.
-/

namespace TopicBroker

/-- A number of the binary64 format. A finite one has the value `significand * 2 ^ exponent`. -/
inductive Binary64 where
  | finite (negative : Bool) (significand : Nat) (exponent : Int)
  | infinite (negative : Bool)
  | notANumber
  deriving DecidableEq, Repr

namespace Binary64

def tenTo (n : Nat) : Nat := Nat.pow 10 n

/-- The exponent of the numbers closest to zero. -/
def leastExponent : Int := -1074

/-- The exponent of the largest numbers. -/
def greatestExponent : Int := 971

/-- The power of two that a quotient is measured in: it has 53 binary digits then, or fewer if the
quotient is close to zero. -/
def exponentOf (num den : Nat) : Int :=
  let estimate : Int := (num.log2 : Int) - den.log2 - 52
  let low := if num <<< (-estimate).toNat < den <<< (52 + estimate.toNat) then estimate - 1
    else estimate
  max low leastExponent

/-- The quotient rounded to a whole number, a half to the even neighbour. -/
def roundHalfEven (num den : Nat) : Nat :=
  let q := num / den
  let twice := 2 * (num % den)
  if twice < den then q else if den < twice then q + 1 else q + q % 2

/-- The number nearest to the quotient of two whole numbers, the second of which is positive. -/
def ofQuotient (negative : Bool) (num den : Nat) : Binary64 :=
  if num = 0 then finite negative 0 leastExponent
  else
    let exponent := exponentOf num den
    let significand := roundHalfEven (num <<< (-exponent).toNat) (den <<< exponent.toNat)
    if 1 <<< 53 ≤ significand then
      if greatestExponent ≤ exponent then infinite negative
      else finite negative (significand / 2) (exponent + 1)
    else if greatestExponent < exponent then infinite negative
    else finite negative significand exponent

/-- The number nearest to `digits * 10 ^ exponent`. -/
def ofDecimal (negative : Bool) (digits : Nat) (exponent : Int) : Binary64 :=
  ofQuotient negative (digits * tenTo exponent.toNat) (tenTo (-exponent).toNat)

/-- The number nearest to `digits * 10 ^ exponent`, where the exponent may be of any size: beyond some
hundreds of places it decides alone. -/
def ofScientific (negative : Bool) (digits : Nat) (exponent : Int) : Binary64 :=
  let places := exponent + (Text.digits digits).length
  if digits = 0 ∨ places < -330 then finite negative 0 leastExponent
  else if 310 < places then infinite negative
  else ofDecimal negative digits exponent

/-- The number is zero, of either sign. -/
def isZero : Binary64 → Bool
  | finite _ significand _ => significand == 0
  | _ => false

/-- The number times a power of ten, rounded as the power itself is. -/
def timesPowerOfTen (x : Binary64) (power : Nat) : Binary64 :=
  match x, ofDecimal false 1 power with
  | finite negative m q, finite _ n r =>
    ofQuotient negative ((m * n) <<< (q + r).toNat) (1 <<< (-(q + r)).toNat)
  | x, _ => x

/-- The number divided by a power of ten, rounded as the power itself is. -/
def overPowerOfTen (x : Binary64) (power : Nat) : Binary64 :=
  match x, ofDecimal false 1 power with
  | finite negative m q, finite _ n r =>
    ofQuotient negative (m <<< (q - r).toNat) (n <<< (r - q).toNat)
  | x, _ => x

/-- The whole number nearest to the value, a half away from zero, if the value is finite. -/
def round? : Binary64 → Option Int
  | finite negative m q =>
    let unit := 1 <<< (-q).toNat
    let magnitude : Nat := (2 * m <<< q.toNat + unit) / (2 * unit)
    some (if negative then -(magnitude : Int) else magnitude)
  | _ => none

example : ofDecimal false 1 (-1) = finite false 7205759403792794 (-56) := by decide
example : ofDecimal false 1 400 = infinite false := by decide +kernel
example : ofDecimal false 5 (-324) = finite false 1 (-1074) := by decide +kernel
example : (ofDecimal true 25 (-1)).round? = some (-3) := by decide

end Binary64

end TopicBroker
