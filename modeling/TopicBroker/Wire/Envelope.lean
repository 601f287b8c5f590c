import TopicBroker.Record.Line
import TopicBroker.Text.Utf8
import TopicBroker.Wire.ContentType
import TopicBroker.Wire.Records

/-!
# Envelopes

Frames as they travel: a request carries a header and a body, a response an error text or a body.
Both are one line of JSON, whatever the format of the body. The body of a response travels as
base64.
-/

namespace TopicBroker.Wire

open Record

def protocolVersion : String := "1.0"

/-! ## Requests -/

/-- What a request says about itself. -/
structure Header where
  version : String
  remoteAddr : String
  contentType : String
  method : String
  deriving DecidableEq, Repr

instance : Flat Header where
  schema :=
    ⟨"Header",
      [.needed "version" .text, .orElse "remoteAddr" .text "", .needed "contentType" .text,
        .needed "method" .text]⟩
  toRow x := (x.version, x.remoteAddr, x.contentType, x.method, ())
  ofRow := fun (version, remoteAddr, contentType, method, ()) =>
    ⟨version, remoteAddr, contentType, method⟩

namespace Header

/-- The header of a request for a method with a body of a given format. -/
def of (format : ContentType) (method : String) : Header where
  version := protocolVersion
  remoteAddr := ""
  contentType := format.tag
  method := method

/-- Checks the version, and tells the format of the body. -/
def validate (header : Header) : Except BrokerError ContentType :=
  if header.version = protocolVersion then ContentType.ofTag header.contentType
  else .error (.invalidArgument "invalid header version")

end Header

structure Request where
  header : Header
  body : String
  deriving DecidableEq, Repr

instance : Structured Request where
  shape :=
    ⟨"Request", [.needed "header" (.record (Flat.schema Header)), .orElse "body" text ""]⟩
  toRow x := (Flat.toRow x.header, x.body, ())
  ofRow := fun (header, body, ()) => ⟨Flat.ofRow header, body⟩

/-! ## Responses -/

/-- A response. It reports an error if its error text is not empty. -/
structure Response where
  error : String
  body : List UInt8
  deriving DecidableEq, Repr

instance : Structured Response where
  shape := ⟨"Response", [.orElse "error" text "", .orElse "body" (.leaf .bytes) []]⟩
  toRow x := (x.error, x.body, ())
  ofRow := fun (error, body, ()) => ⟨error, body⟩

namespace Response

def ok (body : String) : Response := ⟨"", Utf8.encode body⟩

def ofError (error : BrokerError) : Response := ⟨error.message, []⟩

def connected : Response := ok Status.connected

def isError (response : Response) : Bool := response.error ≠ ""

def bodyText (response : Response) : Except BrokerError String :=
  match Utf8.decode? response.body with
  | some body => .ok body
  | none => .error (.internal ("response body is not utf-8: " ++ Fault.unreadable.message))

end Response

end TopicBroker.Wire
