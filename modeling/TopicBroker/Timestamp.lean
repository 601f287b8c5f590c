import TopicBroker.Error
import TopicBroker.Instant
import TopicBroker.Text.Blank
import TopicBroker.Text.Digits

/-!
# Timestamps

Instants as texts of the form `2021-02-27 20:03:09`. Reading is laxer than writing: blanks may
stand around the text, between date and time and in front of every number, numbers may be shorter
than they are written, and a signed year has any number of digits.
-/

namespace TopicBroker.Timestamp

open Text

/-- Why a text is no timestamp. -/
inductive Fault where
  | tooShort
  | invalid
  | trailing
  | outOfRange
  deriving DecidableEq, Repr

def Fault.message : Fault → String
  | tooShort => "premature end of input"
  | invalid => "input contains invalid characters"
  | trailing => "trailing input"
  | outOfRange => "input is out of range"

/-! ## Reading -/

/-- Reads the digits at the front. There has to be one, and no more than `width` are taken. -/
def readDigits (width : Nat) (cs : List Char) : Except Fault (Nat × List Char) :=
  match cs with
  | [] => .error .tooShort
  | c :: _ =>
    if c.isDigit then
      let run := (cs.take width).takeWhile Char.isDigit
      .ok (value run, cs.drop run.length)
    else .error .invalid

/-- Reads a number between `low` and `high` of up to two digits, after any blanks. -/
def readField (low high : Nat) (cs : List Char) : Except Fault (Nat × List Char) := do
  let (n, rest) ← readDigits 2 (trimStart cs)
  if low ≤ n ∧ n ≤ high then .ok (n, rest) else .error .outOfRange

/-- Reads a year after any blanks: up to four digits, or a sign and any number of them. -/
def readYear (cs : List Char) : Except Fault (Int × List Char) := do
  let (year, rest) ← match trimStart cs with
    | '-' :: rest => (readDigits rest.length rest).map fun (n, rest) => (-(n : Int), rest)
    | '+' :: rest => (readDigits rest.length rest).map fun (n, rest) => ((n : Int), rest)
    | rest => (readDigits 4 rest).map fun (n, rest) => ((n : Int), rest)
  if -2147483648 ≤ year ∧ year ≤ 2147483647 then .ok (year, rest) else .error .outOfRange

def readMark (mark : Char) : List Char → Except Fault (List Char)
  | [] => .error .tooShort
  | c :: rest => if c = mark then .ok rest else .error .invalid

/-- The instant of a date and a time of day, where the calendar has the date. The second 60 is the
leap second after the second 59. -/
def instant? (date : Date) (hour minute second : Nat) : Option Instant :=
  if date.isValid then
    let ofDay := hour * 3600 + minute * 60 + min second 59
    Instant.of? (date.toDays * 86400 + ofDay) (if second = 60 then Instant.nanosPerSecond else 0)
  else none

/-- Reads a timestamp with nothing around it. -/
def readInstant (cs : List Char) : Except Fault Instant := do
  let (year, cs) ← readYear cs
  let cs ← readMark '-' cs
  let (month, cs) ← readField 1 12 cs
  let cs ← readMark '-' cs
  let (day, cs) ← readField 1 31 cs
  let (hour, cs) ← readField 0 23 (trimStart cs)
  let cs ← readMark ':' cs
  let (minute, cs) ← readField 0 59 cs
  let cs ← readMark ':' cs
  let (second, cs) ← readField 0 60 cs
  if cs.isEmpty then
    (instant? ⟨year, month, day⟩ hour minute second).elim (.error .outOfRange) .ok
  else .error .trailing

/-- Reads a timestamp, with any blanks around it. -/
def parse (raw : String) : Except BrokerError Instant :=
  match readInstant (trim raw.toList) with
  | .ok t => .ok t
  | .error fault => .error (.invalidArgument s!"bad timestamp '{raw}': {fault.message}")

/-! ## Writing -/

/-- A year in four digits; one that needs more, or is negative, with its sign. -/
def yearText (year : Int) : List Char :=
  if year < 0 then '-' :: padded 4 year.natAbs
  else if year ≤ 9999 then padded 4 year.natAbs
  else '+' :: padded 4 year.natAbs

/-- The timestamp of an instant, without its fraction of a second. -/
def format (t : Instant) : String :=
  let date := Date.ofDays (t.seconds / 86400)
  let ofDay := (t.seconds % 86400).toNat
  let second := ofDay % 60 + t.nanos / Instant.nanosPerSecond
  String.ofList <|
    yearText date.year ++ '-' :: padded 2 date.month ++ '-' :: padded 2 date.day ++
      ' ' :: padded 2 (ofDay / 3600) ++ ':' :: padded 2 (ofDay / 60 % 60) ++
      ':' :: padded 2 second

end TopicBroker.Timestamp
