import TopicBroker.Proofs.Error
import TopicBroker.Proofs.Router.Responses
import TopicBroker.Proofs.Router.Route
import TopicBroker.Proofs.Session.Answers

/-! # Requests over a connection

A client whose requests are answered by a session gets what the service would give to a direct call:
each request is one call with the values of its record, and its outcome comes back as it was, errors
with their kinds and details. This is for bodies in JSON. -/

namespace TopicBroker.Connection

open Record Router Wire

/-! ## Frames -/

theorem exact_requestOf (method : Method) :
    (Structured.shape (RequestOf method)).Exact Kind.Exact := by
  cases method <;> decide

theorem exact_request : (Structured.shape Request).Exact Kind.Exact := by
  decide

/-- The frame of a request clears every check in front of its body. -/
theorem clears_frame {role : Role} {name : String} {method : Method} (connection : Connection)
    (hname : Names name method) (hallowed : method.allows role = true) (body : String) :
    ∃ request, Clears (some role) (connection.frame name body) request connection.format method ∧
      request.body = body := by
  refine ⟨_, ⟨fromJsonText_toJsonText exact_request _, rfl, rfl, hname, ?_⟩, rfl⟩
  simpa [Open] using hallowed

/-! ## One line sent, one response read -/

theorem receive_written (connection : Connection) (response : Response) (rest : List UInt8) :
    receive { connection with unread := Session.written response ++ rest } =
      (.ok response, { connection with unread := rest }) := by
  have hinline := inline_toLine Session.exact_response response
  simp only [receive, Session.written, Lines.next?_ofText hinline, Session.responseOf_encode]

section

variable {m : Type → Type} [Monad m] [LawfulMonad m]

/-- A session's response to a line is the next that its client reads, if it has read all others. -/
theorem send_answer (service : Service m) (session : Session) {line : String}
    (hinline : Json.Inline line.toList) (hblank : Text.isAllBlank line = false)
    {connection : Connection} (hread : connection.unread = []) :
    send (Session.answer service session) line connection =
      (fun response => (.ok response, connection)) <$>
        route service (some session.role) line := by
  have hreceive (response : Response) :
      receive { connection with unread := Session.written response } =
        (.ok response, connection) := by
    have h := receive_written connection response []
    rw [List.append_nil] at h
    rw [h, ← hread]
  simp [send, Session.answer_ofText service session hinline hblank, hread, hreceive]

theorem call_answer (service : Service m) (session : Session) (name body : String)
    {connection : Connection} (hread : connection.unread = []) :
    call (Session.answer service session) name body connection =
      (fun response => (.ok response, connection)) <$>
        route service (some session.role) (connection.frame name body) :=
  send_answer service session (inline_toLine exact_request _) (isAllBlank_toLine _) hread

/-! ## Outcomes -/

theorem outcome_ofError {β : Type} [Structured β] (format : ContentType) (error : BrokerError) :
    outcome (α := β) format (.ofError error) = .error error := by
  rw [outcome, isError_ofError, if_pos rfl, Response.ofError, BrokerError.ofMessage_message]

theorem outcome_ok {β : Type} [Structured β] (format : ContentType) (body : String) :
    outcome (α := β) format (.ok body) = format.decode body := by
  simp [outcome]

/-- The outcome of a call is read back from the response that tells it. -/
theorem outcome_respond (call : ServiceCall) (answer : Except BrokerError call.Answer) :
    outcome .json (respond .json call answer) = answer.map (responseTo call) := by
  cases answer with
  | error error => exact outcome_ofError .json error
  | ok answer =>
      rw [respond, outcome_ok, body_eq, decode_encode (exact_responseOf call)]
      rfl

/-! ## Requests -/

/-- What a request for a method comes to, over a connection from an address to a session. -/
structure Transparent (address : String) (session : Session) (name : String) (method : Method)
    (record : RequestOf method) : Prop where
  /-- The connection is made by what a session writes first, and nothing of it is left to read. -/
  dialled : dial address (.ok (Session.written .connected)) = .ok ⟨.json, address, []⟩
  /-- A request is one call with the values of its record. The outcome of the call comes back, and
  the connection is left ready for the next request. -/
  carried : method ≠ .checkMessageStatus → ∃ call, callFor? method record = some call ∧
    ∀ (m : Type → Type) [Monad m] [LawfulMonad m] (service : Service m) (before : List ServiceCall),
      (request (Session.answer (recording service) session) name record ⟨.json, address, []⟩).run
          before =
        (fun outcome =>
          ((outcome.map (responseTo call), ⟨.json, address, []⟩), before ++ [call])) <$>
            service call
  /-- A request for the reserved method is no call. -/
  reserved : method = .checkMessageStatus →
    ∀ (β : Type) [Structured β] (m : Type → Type) [Monad m] [LawfulMonad m] (service : Service m)
      (before : List ServiceCall),
      (request (β := β) (Session.answer (recording service) session) name record
          ⟨.json, address, []⟩).run before =
        pure ((.error (.unimplemented "checkMessageStatusRequest is not supported"),
          ⟨.json, address, []⟩), before)

end

variable {name : String} {method : Method}

/-- A request is what the plan of its frame makes it. -/
theorem request_answer {β : Type} [Structured β] {m : Type → Type} [Monad m] [LawfulMonad m]
    (service : Service m) {session : Session} (hname : Names name method)
    (hallowed : method.allows session.role = true) (record : RequestOf method) (address : String) :
    request (β := β) (Session.answer service session) name record ⟨.json, address, []⟩ =
      match callFor? method record with
      | some call =>
        (fun answer => (outcome .json (respond .json call answer), ⟨.json, address, []⟩)) <$>
          service call
      | none =>
        pure (.error (.unimplemented "checkMessageStatusRequest is not supported"),
          ⟨.json, address, []⟩) := by
  let connection : Connection := ⟨.json, address, []⟩
  have hread : connection.unread = [] := rfl
  obtain ⟨sent, hclears, hbody⟩ :=
    clears_frame connection hname hallowed (ContentType.json.encode record)
  have hplan := plan_of_clears hclears
  simp only [hbody, connection, decode_encode (exact_requestOf method)] at hplan
  -- The frame is one line, so the session answers it and nothing else, and that is read back.
  have hroute : request (β := β) (Session.answer service session) name record connection =
      (fun response => (outcome .json response, connection)) <$>
        route service (some session.role)
          (connection.frame name (ContentType.json.encode record)) := by
    simp [request, call_answer service session name _ hread, connection, Except.bind]
  refine hroute.trans ?_
  cases hcall : callFor? method record with
  | some call =>
      rw [hcall] at hplan
      rw [route_of_plan_eq_ok service hplan, Functor.map_map]
  | none =>
      rw [hcall] at hplan
      rw [route_of_plan_eq_error service hplan, map_pure, outcome_ofError]

theorem checkAcknowledgement_connected : checkAcknowledgement .connected = .ok () := by
  simp [checkAcknowledgement, Response.connected]

theorem dial_connected (address : String) :
    dial address (.ok (Session.written .connected)) = .ok ⟨.json, address, []⟩ := by
  have hreceive : receive ⟨.json, address, Session.written .connected⟩ =
      (.ok .connected, ⟨.json, address, []⟩) := by
    simpa using receive_written ⟨.json, address, []⟩ .connected []
  simp [dial, Except.mapError, hreceive, checkAcknowledgement_connected, bind, Except.bind]

/-- Requests over a connection to a session whose role may use the method are transparent. -/
theorem transparent_request (address : String) (session : Session) (hname : Names name method)
    (hallowed : method.allows session.role = true) (record : RequestOf method) :
    Transparent address session name method record := by
  refine ⟨dial_connected address, ?_, ?_⟩
  · intro hmethod
    obtain ⟨call, hcall⟩ := Option.ne_none_iff_exists'.mp (mt callFor?_eq_none_iff.mp hmethod)
    refine ⟨call, hcall, ?_⟩
    intro m _ _ service before
    rw [request_answer (recording service) hname hallowed record address]
    simp only [hcall, outcome_respond]
    rw [StateT.run_map, run_recording, Functor.map_map]
  · intro hmethod β _ m _ _ service before
    rw [request_answer (recording service) hname hallowed record address]
    simp only [callFor?_eq_none_iff.mpr hmethod]
    rfl

/-- An error with colons and line breaks in its detail comes back as it was, after one call with the
values of the record. -/
theorem transparent_request_colons :
    Names "publishMessage" .publishMessage ∧ Method.allows .publishMessage .publisher = true ∧
      (request (β := PublishMessageResponse) (m := StateT (List ServiceCall) Id)
          (Session.answer
            (recording (fun _ => .error (.notFound "topic: 'b': \n") : Service Id))
            ⟨.publisher, 40000⟩)
          "publishMessage" (PublishMessageRequest.mk ⟨7, by decide⟩ ⟨"\"a\": \n", "", ""⟩)
          ⟨.json, "127.0.0.1:40000", []⟩).run [] =
        ((.error (.notFound "topic: 'b': \n"), ⟨.json, "127.0.0.1:40000", []⟩),
          [.publish ⟨7, by decide⟩ ⟨"\"a\": \n", some "", some ""⟩]) := by
  have hname : Names "publishMessage" .publishMessage := .inr rfl
  have hallowed : Method.allows .publishMessage .publisher = true := rfl
  let session : Session := ⟨.publisher, 40000⟩
  let record : PublishMessageRequest := ⟨⟨7, by decide⟩, ⟨"\"a\": \n", "", ""⟩⟩
  obtain ⟨call, hcall, hrun⟩ :=
    (transparent_request "127.0.0.1:40000" session hname hallowed record).carried (by decide)
  cases hcall
  exact ⟨hname, hallowed, hrun Id (fun _ => .error (.notFound "topic: 'b': \n")) []⟩

end TopicBroker.Connection
