import TopicBroker.Calendar
import TopicBroker.Text.Digits

/-!
# Dates and times in TOML

A date, a time of day, or both with or without the distance from Greenwich. They are held as texts,
set out in the usual way: a capital `T` between date and time, and no zeros at the end of a fraction
but the one of a fraction that is zero. A time of day need not have seconds.
-/

namespace TopicBroker.Toml.Moment

/-- The number that two digits stand for, between given bounds. -/
def pair? (low high : Nat) (a b : Char) : Option Nat :=
  if a.isDigit ∧ b.isDigit then
    let n := Text.value [a, b]
    if low ≤ n ∧ n ≤ high then some n else none
  else none

def readDate? : List Char → Option (List Char × List Char)
  | y₁ :: y₂ :: y₃ :: y₄ :: '-' :: m₁ :: m₂ :: '-' :: d₁ :: d₂ :: rest => do
    let century ← pair? 0 99 y₁ y₂
    let year ← pair? 0 99 y₃ y₄
    let month ← pair? 1 12 m₁ m₂
    let day ← pair? 1 31 d₁ d₂
    if (Date.mk (100 * century + year) month day).isValid then
      some ([y₁, y₂, y₃, y₄, '-', m₁, m₂, '-', d₁, d₂], rest)
    else none
  | _ => none

/-- The digits of a fraction that are written: nine at most, and no zeros at the end unless there is
nothing else. -/
def trimFraction (digits : List Char) : List Char :=
  match (digits.take 9).reverse.dropWhile (· == '0') with
  | [] => ['0']
  | reversed => reversed.reverse

/-- Reads the fraction of a second, if there is one. -/
def readFraction? : List Char → Option (List Char × List Char)
  | '.' :: cs =>
    match cs.span Char.isDigit with
    | ([], _) => none
    | (digits, rest) => some ('.' :: trimFraction digits, rest)
  | cs => some ([], cs)

/-- Reads the seconds, if there are any. -/
def readSeconds? : List Char → Option (List Char × List Char)
  | ':' :: s₁ :: s₂ :: rest => do
    let _ ← pair? 0 60 s₁ s₂
    let (fraction, rest) ← readFraction? rest
    some (':' :: s₁ :: s₂ :: fraction, rest)
  | ':' :: _ => none
  | cs => some ([], cs)

def readTime? : List Char → Option (List Char × List Char)
  | h₁ :: h₂ :: ':' :: m₁ :: m₂ :: rest => do
    let _ ← pair? 0 23 h₁ h₂
    let _ ← pair? 0 59 m₁ m₂
    let (seconds, rest) ← readSeconds? rest
    some ([h₁, h₂, ':', m₁, m₂] ++ seconds, rest)
  | _ => none

/-- Reads the distance from Greenwich, if there is one, to the end. -/
def readOffset? : List Char → Option (List Char)
  | [] => some []
  | ['Z'] | ['z'] => some ['Z']
  | [sign, h₁, h₂, ':', m₁, m₂] => do
    let hours ← pair? 0 23 h₁ h₂
    let minutes ← pair? 0 59 m₁ m₂
    if sign = '+' ∨ (sign = '-' ∧ hours = 0 ∧ minutes = 0) then some ['+', h₁, h₂, ':', m₁, m₂]
    else if sign = '-' then some ['-', h₁, h₂, ':', m₁, m₂]
    else none
  | _ => none

def readBehindDate? : List Char → Option (List Char)
  | [] => some []
  | mark :: cs =>
    if mark = 'T' ∨ mark = 't' ∨ mark = ' ' then do
      let (time, rest) ← readTime? cs
      let offset ← readOffset? rest
      some ('T' :: time ++ offset)
    else none

/-- The text of a date or time, set out in the usual way. -/
def text? (cs : List Char) : Option (List Char) :=
  match readDate? cs with
  | some (date, rest) => (readBehindDate? rest).map (date ++ ·)
  | none =>
    match readTime? cs with
    | some (time, []) => some time
    | _ => none

end TopicBroker.Toml.Moment
