/-!
# Broker errors

`BrokerError` lists the causes for which the broker refuses or fails a request. `message` is the
one place that words them, and `ofMessage` reads such a text back. The wording travels inside
response frames, so it is part of the wire format.
-/

namespace TopicBroker

/-- Why a request was refused or failed. Every cause but `unauthorized` carries a detail. -/
inductive BrokerError where
  /-- A malformed frame, or a required text that is empty. -/
  | invalidArgument (detail : String)
  /-- An unknown topic, or a binding that should exist and does not. -/
  | notFound (detail : String)
  /-- The request is well formed but the broker is not in a state to serve it. -/
  | failedPrecondition (detail : String)
  /-- The connection comes from a port outside every role's range. -/
  | unauthorized
  /-- A method that the broker does not know or does not serve. -/
  | unimplemented (detail : String)
  /-- A failure of storage, of the queue engine or of an encoding. -/
  | internal (detail : String)
  /-- The time allowed for an operation ran out. -/
  | deadlineExceeded (detail : String)
  deriving DecidableEq, Repr, Inhabited

namespace BrokerError

def message : BrokerError → String
  | invalidArgument detail => "invalid argument: " ++ detail
  | notFound detail => "not found: " ++ detail
  | failedPrecondition detail => "failed precondition: " ++ detail
  | unauthorized => "unauthorised"
  | unimplemented detail => "unimplemented: " ++ detail
  | internal detail => "internal: " ++ detail
  | deadlineExceeded detail => "deadline exceeded: " ++ detail

/-- Splits a text at the first colon that a blank follows; both are dropped. -/
def splitAtColon : List Char → Option (List Char × List Char)
  | [] => none
  | ':' :: ' ' :: rest => some ([], rest)
  | c :: rest => (splitAtColon rest).map fun (kind, detail) => (c :: kind, detail)

/-- The cause that a kind's name stands for. -/
def ofKind? (kind detail : String) : Option BrokerError :=
  match kind with
  | "invalid argument" => some (invalidArgument detail)
  | "not found" => some (notFound detail)
  | "failed precondition" => some (failedPrecondition detail)
  | "unimplemented" => some (unimplemented detail)
  | "internal" => some (internal detail)
  | "deadline exceeded" => some (deadlineExceeded detail)
  | _ => none

/-- Reads the text of a response frame back. A text that names no cause is an internal error. -/
def ofMessage (text : String) : BrokerError :=
  if text = "unauthorised" then unauthorized
  else
    match splitAtColon text.toList with
    | none => internal text
    | some (kind, detail) =>
      (ofKind? (String.ofList kind) (String.ofList detail)).getD (internal text)

/-- The free text of the error, which `unauthorized` has not. -/
def detail? : BrokerError → Option String
  | invalidArgument detail | notFound detail | failedPrecondition detail | unimplemented detail
  | internal detail | deadlineExceeded detail => some detail
  | unauthorized => none

end BrokerError

end TopicBroker
