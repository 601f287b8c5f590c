import TopicBroker.Proofs.Record.Json
import TopicBroker.Proofs.Record.Xml
import TopicBroker.Proofs.Store.Checkpoint
import TopicBroker.Wire.Codec
import TopicBroker.Wire.Envelope

/-! # Wire records come through both formats

Every record is read back from JSON as it was. From XML it is read back without the white space at
the ends of its texts, so the two formats agree on the records whose texts have none there, and on
no others. -/

namespace TopicBroker.Wire

open Record Xml

/-- The types of the records that travel. -/
inductive RecordType where
  | header
  | request
  | response
  | messageBody
  | showTopicRequest
  | showTopicResponse
  | connectToTopicRequest
  | disconnectFromTopicRequest
  | publishMessageRequest
  | publishMessageResponse
  | checkMessageStatusRequest
  | subscribeToTopicRequest
  | unsubscribeFromTopicRequest
  | getSubscribedTopicsRequest
  | getSubscribedTopicsResponse
  | getMessageFromTopicRequest
  | getMessageFromTopicResponse
  | statusResponse

namespace RecordType

abbrev Value : RecordType → Type
  | header => Header
  | request => Request
  | response => Response
  | messageBody => MessageBody
  | showTopicRequest => ShowTopicRequest
  | showTopicResponse => ShowTopicResponse
  | connectToTopicRequest => ConnectToTopicRequest
  | disconnectFromTopicRequest => DisconnectFromTopicRequest
  | publishMessageRequest => PublishMessageRequest
  | publishMessageResponse => PublishMessageResponse
  | checkMessageStatusRequest => CheckMessageStatusRequest
  | subscribeToTopicRequest => SubscribeToTopicRequest
  | unsubscribeFromTopicRequest => UnsubscribeFromTopicRequest
  | getSubscribedTopicsRequest => GetSubscribedTopicsRequest
  | getSubscribedTopicsResponse => GetSubscribedTopicsResponse
  | getMessageFromTopicRequest => GetMessageFromTopicRequest
  | getMessageFromTopicResponse => GetMessageFromTopicResponse
  | statusResponse => StatusResponse

instance : (type : RecordType) → Structured type.Value
  | header => inferInstanceAs (Structured Header)
  | request => inferInstanceAs (Structured Request)
  | response => inferInstanceAs (Structured Response)
  | messageBody => inferInstanceAs (Structured MessageBody)
  | showTopicRequest => inferInstanceAs (Structured ShowTopicRequest)
  | showTopicResponse => inferInstanceAs (Structured ShowTopicResponse)
  | connectToTopicRequest => inferInstanceAs (Structured ConnectToTopicRequest)
  | disconnectFromTopicRequest => inferInstanceAs (Structured DisconnectFromTopicRequest)
  | publishMessageRequest => inferInstanceAs (Structured PublishMessageRequest)
  | publishMessageResponse => inferInstanceAs (Structured PublishMessageResponse)
  | checkMessageStatusRequest => inferInstanceAs (Structured CheckMessageStatusRequest)
  | subscribeToTopicRequest => inferInstanceAs (Structured SubscribeToTopicRequest)
  | unsubscribeFromTopicRequest => inferInstanceAs (Structured UnsubscribeFromTopicRequest)
  | getSubscribedTopicsRequest => inferInstanceAs (Structured GetSubscribedTopicsRequest)
  | getSubscribedTopicsResponse => inferInstanceAs (Structured GetSubscribedTopicsResponse)
  | getMessageFromTopicRequest => inferInstanceAs (Structured GetMessageFromTopicRequest)
  | getMessageFromTopicResponse => inferInstanceAs (Structured GetMessageFromTopicResponse)
  | statusResponse => inferInstanceAs (Structured StatusResponse)

/-! ## Shapes -/

theorem exact (type : RecordType) : (Structured.shape type.Value).Exact Kind.Exact := by
  cases type <;> decide

theorem fitsXml (type : RecordType) : (Structured.shape type.Value).FitsXml Field.fitsXml := by
  cases type <;> decide

theorem isName (type : RecordType) : IsName (Structured.shape type.Value).name := by
  cases type <;> decide

/-- Every row is the row of a record. -/
theorem toRow_ofRow (type : RecordType) (row : (Structured.shape type.Value).Value) :
    Structured.toRow (Structured.ofRow row : type.Value) = row := by
  cases type with
  | getMessageFromTopicResponse =>
      obtain ⟨_ | message, ⟨⟩⟩ := row <;> rfl
  | _ => rfl

theorem trimmed_eq_self_iff (type : RecordType) (x : type.Value) :
    trimmed x = x ↔ ∀ s ∈ textsOf x, IsTrim s.toList := by
  rw [textsOf, ← mapRow_eq_self_iff Kind.trim_eq_self_iff]
  constructor
  · intro h
    rw [← type.toRow_ofRow (mapRow Kind.trim _ (Structured.toRow x))]
    exact congrArg Structured.toRow h
  · intro h
    rw [trimmed, h, Structured.ofRow_toRow]

end RecordType

/-! ## The two formats -/

theorem decode_encode {α : Type} [Structured α] (h : (Structured.shape α).Exact Kind.Exact)
    (x : α) : ContentType.json.decode (ContentType.json.encode x) = .ok x := by
  simp [ContentType.decode, ContentType.encode, fromJsonText_toJsonText h, Except.mapError]

/-- No record is changed by JSON, neither one that travels nor one that the store keeps as a
line. -/
theorem json_faithful :
    (∀ (type : RecordType) (x : type.Value),
      ContentType.json.decode (ContentType.json.encode x) = .ok x) ∧
    (∀ row : Store.QueuedMessage, ofLine (toLine row) = .ok row) ∧
    (∀ row : Store.LoggedMessage, ofLine (toLine row) = .ok row) :=
  ⟨fun type => decode_encode type.exact, ofLine_toLine Store.QueuedMessage.exact,
    ofLine_toLine Store.LoggedMessage.exact⟩

theorem xml_decode_encode (type : RecordType) (x : type.Value) :
    ContentType.xml.decode (ContentType.xml.encode x) = .ok (trimmed x) := by
  simp [ContentType.decode, ContentType.encode,
    fromXmlText_toXmlText type.isName type.fitsXml, Except.mapError]

/-- A record comes through XML with the white space at the ends of its texts dropped and nothing
else. So it comes through as it does through JSON, unchanged, if and only if no text has any. -/
theorem formats_agree_iff (type : RecordType) (x : type.Value) :
    ContentType.json.decode (ContentType.json.encode x) = .ok x ∧
    ContentType.xml.decode (ContentType.xml.encode x) = .ok (trimmed x) ∧
    (ContentType.xml.decode (ContentType.xml.encode x) = .ok x ↔
      ∀ s ∈ textsOf x, IsTrim s.toList) := by
  have hxml := xml_decode_encode type x
  refine ⟨decode_encode type.exact x, hxml, ?_⟩
  rw [hxml, ← type.trimmed_eq_self_iff x]
  exact ⟨Except.ok.inj, congrArg Except.ok⟩

/-- A payload with white space around it is not the same after it has travelled in XML. -/
theorem formats_differ_paddedPayload :
    let padded : MessageBody := ⟨" hi\n", "", ""⟩
    let bare : MessageBody := ⟨"hi", "", ""⟩
    ContentType.xml.decode (ContentType.xml.encode padded) = .ok bare ∧ bare ≠ padded ∧
    ContentType.json.decode (ContentType.json.encode padded) = .ok padded := by
  refine ⟨(xml_decode_encode .messageBody ⟨" hi\n", "", ""⟩).trans ?_, by decide,
    decode_encode RecordType.messageBody.exact ⟨" hi\n", "", ""⟩⟩
  decide +kernel

end TopicBroker.Wire
