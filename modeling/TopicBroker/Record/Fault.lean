import TopicBroker.Json.Writer
import TopicBroker.Text.Quoted

/-!
# Decoding faults

Why a text is no record. The wording is the same for every format and every record, and part of
what clients are told.
-/

namespace TopicBroker.Record

/-- What was found in the place of something else. -/
inductive Found where
  | null
  | boolean (b : Bool)
  | integer (n : Int)
  | float (x : Binary64)
  | text (s : String)
  | sequence
  | map
  deriving DecidableEq, Repr

def Found.message : Found → String
  | null => "null"
  | boolean b => "boolean `" ++ (if b then "true" else "false") ++ "`"
  | integer n => "integer `" ++ String.ofList (Text.decimal n) ++ "`"
  | float x => "floating point `" ++ String.ofList (x.text Json.floatLayout) ++ "`"
  | text s => "string " ++ Text.quoted s
  | sequence => "sequence"
  | map => "map"

/-- Why a text is no record. -/
inductive Fault where
  /-- The text does not follow the rules of its format. -/
  | unreadable
  /-- A field that has to be there is not. -/
  | missing (field : String)
  /-- A field is given twice. -/
  | duplicate (field : String)
  /-- A value is of the wrong kind. -/
  | wrongType (found : Found) (expected : String)
  /-- A value is of the right kind but out of range. -/
  | wrongValue (found : Found) (expected : String)
  /-- A list has the wrong length. -/
  | wrongLength (length : Nat) (expected : String)
  deriving DecidableEq, Repr

def Fault.message : Fault → String
  | unreadable => "parse error"
  | missing field => "missing field `" ++ field ++ "`"
  | duplicate field => "duplicate field `" ++ field ++ "`"
  | wrongType found expected => "invalid type: " ++ found.message ++ ", expected " ++ expected
  | wrongValue found expected => "invalid value: " ++ found.message ++ ", expected " ++ expected
  | wrongLength length expected =>
    "invalid length " ++ String.ofList (Text.digits length) ++ ", expected " ++ expected

end TopicBroker.Record
