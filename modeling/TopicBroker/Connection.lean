import TopicBroker.Wire.Codec
import TopicBroker.Wire.Envelope
import TopicBroker.Wire.Lines

/-!
# Connections

The client's end of a connection. A request is written as one line, and the next line that arrives
is taken for its response; so whatever the other end writes unasked shifts the responses.
-/

namespace TopicBroker

open Record Wire

/-- A connection to a broker. -/
structure Connection where
  /-- The format of the bodies. -/
  format : ContentType
  /-- The address that the client connects from. -/
  address : String
  /-- What the other end has written and nobody has read. -/
  unread : List UInt8
  deriving DecidableEq, Repr

/-- The other end of a connection: bytes are sent to it, and it writes bytes in answer. If it leaves
less than a line to read it has closed the connection. -/
abbrev Peer (m : Type → Type) := List UInt8 → m (List UInt8)

namespace Connection

/-- The error of a connection that cannot be made or read. -/
def transportError (reason : String) : BrokerError :=
  .internal ("io: " ++ reason)

def responseOf (line : List UInt8) : Except BrokerError Response :=
  match Utf8.decode? line with
  | some text => ofLine text
  | none => .error (transportError "stream did not contain valid UTF-8")

def receive (connection : Connection) : Except BrokerError Response × Connection :=
  match Lines.next? connection.unread with
  | none => (.error (.internal "connection closed by broker"), connection)
  | some (line, unread) => (responseOf line, { connection with unread })

/-! ## Dialling -/

def checkAcknowledgement (response : Response) : Except BrokerError Unit :=
  if response.isError then .error (.ofMessage response.error)
  else do
    let status ← response.bodyText
    if status = Status.connected then .ok ()
    else .error (.internal ("unexpected acknowledgement: " ++ status))

/-- Makes a connection from an address, given what the other end writes first, or the reason for
which it cannot be reached. -/
def dial (address : String) (greeting : Except String (List UInt8)) :
    Except BrokerError Connection := do
  let unread ← greeting.mapError transportError
  let (response, connection) := receive ⟨.json, address, unread⟩
  checkAcknowledgement (← response)
  .ok connection

/-! ## Requests -/

def frame (connection : Connection) (method body : String) : String :=
  let header := { Header.of connection.format method with remoteAddr := connection.address }
  toLine (Request.mk header body)

/-- The record that a response brings, or the error that it reports. -/
def outcome {α : Type} [Structured α] (format : ContentType) (response : Response) :
    Except BrokerError α :=
  if response.isError then .error (.ofMessage response.error)
  else do
    let body ← response.bodyText
    format.decode body

variable {m : Type → Type} [Monad m]

def send (peer : Peer m) (line : String) (connection : Connection) :
    m (Except BrokerError Response × Connection) := do
  let written ← peer (Lines.ofText line)
  return receive { connection with unread := connection.unread ++ written }

/-- Sends a body under a method and reads the next response. -/
def call (peer : Peer m) (method body : String) (connection : Connection) :
    m (Except BrokerError Response × Connection) :=
  send peer (connection.frame method body) connection

/-- Sends a record under a method, and reads the record that the next response brings. -/
def request {α β : Type} [Structured α] [Structured β] (peer : Peer m) (method : String) (x : α)
    (connection : Connection) : m (Except BrokerError β × Connection) := do
  let (response, connection) ← call peer method (connection.format.encode x) connection
  return (response.bind (outcome connection.format), connection)

end Connection

end TopicBroker
