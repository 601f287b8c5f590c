import TopicBroker.Router
import TopicBroker.Wire.Lines

/-!
# Sessions

The broker's end of a connection. A client gets a role by the port that it connects from, and keeps
it; one without a role is told so and let go. Its lines are answered one after the other, each by
one line, and lines of blanks are passed over.
-/

namespace TopicBroker

open Wire

/-- A connection of a client that has a role. Its port is what tells it from other clients. -/
structure Session where
  role : Role
  port : Port
  deriving DecidableEq, Repr

namespace Session

/-- The session of a client that connects from a port, if the port has a role. -/
def open? (ranges : RoleRanges) (port : Port) : Option Session :=
  (ranges.classify port).map (⟨·, port⟩)

def written (response : Response) : List UInt8 :=
  Lines.ofText (Record.toLine response)

section

variable {m : Type → Type} [Monad m]

/-- What is written for a line. -/
def reply (service : Service m) (session : Session) (line : String) : m (List UInt8) :=
  if Text.isAllBlank line then return []
  else do
    let response ← Router.route service (some session.role) line
    return written response

/-- What is written for the lines of a stream, up to its end or the first line that is not UTF-8. A
line is not read before the one in front of it is answered. -/
def answer (service : Service m) (session : Session) (input : List UInt8) : m (List UInt8) :=
  match _h : Lines.next? input with
  | none => return []
  | some (line, rest) =>
    match Utf8.decode? line with
    | none => return []
    | some text => do
      let reply ← reply service session text
      let replies ← answer service session rest
      return reply ++ replies
termination_by input.length
decreasing_by exact Lines.length_of_next? _h

/-- All that is written on a connection: the acknowledgement, and the answers. -/
def serve (service : Service m) (session : Session) (input : List UInt8) : m (List UInt8) := do
  let answers ← answer service session input
  return written .connected ++ answers

end

/-- All that is written to a client without a role. -/
def refusal : List UInt8 :=
  written (.ofError .unauthorized)

end Session

end TopicBroker
