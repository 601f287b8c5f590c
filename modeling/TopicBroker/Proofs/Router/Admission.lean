import TopicBroker.Proofs.Action
import TopicBroker.Router

/-! # Which frames are admitted

A frame is admitted when it passes every check on the way to the service, and refused for the first
check that it does not pass. The two are stated here without the router, and then shown to be what
the router plans. -/

namespace TopicBroker.Router

open Wire Record

/-! ## The records of methods -/

/-- The record that the body of a request for a method holds. -/
abbrev RequestOf : Method → Type
  | .showTopic => ShowTopicRequest
  | .connectToTopic => ConnectToTopicRequest
  | .disconnectFromTopic => DisconnectFromTopicRequest
  | .publishMessage => PublishMessageRequest
  | .checkMessageStatus => CheckMessageStatusRequest
  | .subscribeToTopic => SubscribeToTopicRequest
  | .unsubscribeFromTopic => UnsubscribeFromTopicRequest
  | .getSubscribedTopics => GetSubscribedTopicsRequest
  | .getMessageFromTopic => GetMessageFromTopicRequest

instance : (method : Method) → Structured (RequestOf method)
  | .showTopic => inferInstanceAs (Structured ShowTopicRequest)
  | .connectToTopic => inferInstanceAs (Structured ConnectToTopicRequest)
  | .disconnectFromTopic => inferInstanceAs (Structured DisconnectFromTopicRequest)
  | .publishMessage => inferInstanceAs (Structured PublishMessageRequest)
  | .checkMessageStatus => inferInstanceAs (Structured CheckMessageStatusRequest)
  | .subscribeToTopic => inferInstanceAs (Structured SubscribeToTopicRequest)
  | .unsubscribeFromTopic => inferInstanceAs (Structured UnsubscribeFromTopicRequest)
  | .getSubscribedTopics => inferInstanceAs (Structured GetSubscribedTopicsRequest)
  | .getMessageFromTopic => inferInstanceAs (Structured GetMessageFromTopicRequest)

/-- The call that a method names, with its arguments from the record. One method names none. -/
def callFor? : (method : Method) → RequestOf method → Option ServiceCall
  | .showTopic, _ => some .listTopics
  | .connectToTopic, r => some (.registerPublisher r.publisherId r.topicName)
  | .disconnectFromTopic, r => some (.deregisterPublisher r.publisherId)
  | .publishMessage, r =>
    some (.publish r.publisherId
      ⟨r.message.data, some r.message.createdAt, some r.message.expiresAt⟩)
  | .checkMessageStatus, _ => none
  | .subscribeToTopic, r => some (.registerSubscriber r.subscriberId r.topicName)
  | .unsubscribeFromTopic, r => some (.deregisterSubscriber r.subscriberId r.topicName)
  | .getSubscribedTopics, r => some (.listSubscriptions r.subscriberId)
  | .getMessageFromTopic, r => some (.readMessage r.subscriberId r.topicName)

theorem callOf_eq (format : ContentType) (body : String) (method : Method) :
    callOf format body method =
      match format.decode body with
      | .error error => .error error
      | .ok (record : RequestOf method) =>
        match callFor? method record with
        | some call => .ok call
        | none => .error (.unimplemented "checkMessageStatusRequest is not supported") := by
  cases hdecode : (format.decode body : Except BrokerError (RequestOf method)) with
  | error error => cases method <;> exact congrArg (· >>= _) hdecode
  | ok record => cases method <;> exact congrArg (· >>= _) hdecode

theorem callFor?_eq_none_iff {method : Method} {record : RequestOf method} :
    callFor? method record = none ↔ method = .checkMessageStatus := by
  cases method <;> simp [callFor?]

/-- A body that does not hold its record is an invalid argument. -/
theorem exists_of_decode_error {α : Type} [Structured α] {format : ContentType} {body : String}
    {error : BrokerError} (h : format.decode (α := α) body = .error error) :
    ∃ detail, error = .invalidArgument detail := by
  cases format with
  | json =>
      obtain ⟨fault, -, rfl⟩ := exists_of_mapError_eq_error h
      exact ⟨_, rfl⟩
  | xml =>
      obtain ⟨fault, -, rfl⟩ := exists_of_mapError_eq_error h
      exact ⟨_, rfl⟩

/-! ## Checks -/

/-- A tag names a method in full or in short. -/
def Names (tag : String) (method : Method) : Prop :=
  tag = method.tag ∨ tag = method.shortName

theorem ofTag?_tag (method : Method) : Method.ofTag? method.tag = some method := by
  cases method <;> decide

theorem ofTag?_shortName (method : Method) : Method.ofTag? method.shortName = some method := by
  cases method <;> decide

theorem ofTag?_eq_some_iff {tag : String} {method : Method} :
    Method.ofTag? tag = some method ↔ Names tag method := by
  constructor
  · intro h
    have hnames := List.find?_some h
    simp only [Bool.or_eq_true, beq_iff_eq] at hnames
    exact hnames.imp Eq.symm Eq.symm
  · rintro (rfl | rfl)
    · exact ofTag?_tag method
    · exact ofTag?_shortName method

/-- A method is open to a caller. A caller without a role may use any method. -/
def Open (method : Method) (role : Option Role) : Prop :=
  ∀ r ∈ role, method.allows r = true

/-- The request in a frame passes every check in front of its body. -/
structure Clears (role : Option Role) (frame : String) (request : Request) (format : ContentType)
    (method : Method) : Prop where
  envelope : fromJsonText frame = .ok request
  version : request.header.version = "1.0"
  contentType : request.header.contentType = format.tag
  named : Names request.header.method method
  allowed : Open method role

/-- The frame asks for a call that its sender may make, in a format in which it is answered. -/
def Admitted (role : Option Role) (frame : String) (format : ContentType) (call : ServiceCall) :
    Prop :=
  ∃ request method, ∃ record : RequestOf method, Clears role frame request format method ∧
    format.decode request.body = .ok record ∧ callFor? method record = some call

/-- The frame fails a check, and passes those in front of it. -/
inductive Refused (role : Option Role) (frame : String) : BrokerError → Prop where
  | envelope (fault : Fault) :
      (fromJsonText frame : Except Fault Request) = .error fault →
      Refused role frame (.invalidArgument ("malformed request: " ++ fault.message))
  | version (request : Request) : fromJsonText frame = .ok request →
      request.header.version ≠ "1.0" →
      Refused role frame (.invalidArgument "invalid header version")
  | contentType (request : Request) : fromJsonText frame = .ok request →
      request.header.version = "1.0" →
      (∀ format, request.header.contentType ≠ ContentType.tag format) →
      Refused role frame (.invalidArgument "unsupported content-type")
  | method (request : Request) (format : ContentType) : fromJsonText frame = .ok request →
      request.header.version = "1.0" → request.header.contentType = format.tag →
      (∀ method, ¬ Names request.header.method method) →
      Refused role frame (.unimplemented ("unknown method '" ++ request.header.method ++ "'"))
  | role (request : Request) (format : ContentType) (method : Method) (sender : Role) :
      fromJsonText frame = .ok request → request.header.version = "1.0" →
      request.header.contentType = format.tag → Names request.header.method method →
      role = some sender → method.allows sender = false →
      Refused role frame
        (.failedPrecondition (method.tag ++ " is not available to a " ++ sender.name))
  | body (request : Request) (format : ContentType) (method : Method) (detail : String) :
      Clears role frame request format method →
      (format.decode request.body : Except BrokerError (RequestOf method)) =
        .error (.invalidArgument detail) →
      Refused role frame (.invalidArgument detail)
  | reserved (request : Request) (format : ContentType) (record : RequestOf .checkMessageStatus) :
      Clears role frame request format .checkMessageStatus →
      format.decode request.body = .ok record →
      Refused role frame (.unimplemented "checkMessageStatusRequest is not supported")

/-! ## The plan of a frame -/

theorem requestOf_of_ok {frame : String} {request : Request}
    (h : fromJsonText frame = .ok request) : requestOf frame = .ok request :=
  congrArg (Except.mapError _) h

theorem requestOf_of_error {frame : String} {fault : Fault}
    (h : (fromJsonText frame : Except Fault Request) = .error fault) :
    requestOf frame = .error (.invalidArgument ("malformed request: " ++ fault.message)) :=
  congrArg (Except.mapError _) h

theorem validate_eq (header : Header) :
    header.validate =
      if header.version = "1.0" then ContentType.ofTag header.contentType
      else .error (.invalidArgument "invalid header version") :=
  rfl

theorem tag_inj {format other : ContentType} (h : format.tag = other.tag) : format = other := by
  have hformat := ContentType.ofTag_tag format
  rw [h, ContentType.ofTag_tag] at hformat
  exact (Except.ok.inj hformat).symm

theorem ofTag_cases (tag : String) :
    (∃ format : ContentType, tag = format.tag ∧ ContentType.ofTag tag = .ok format) ∨
      (∀ format, tag ≠ ContentType.tag format) ∧
        ContentType.ofTag tag = .error (.invalidArgument "unsupported content-type") := by
  unfold ContentType.ofTag
  split
  · exact .inl ⟨.json, rfl, rfl⟩
  · exact .inl ⟨.xml, rfl, rfl⟩
  · next hjson hxml =>
      refine .inr ⟨?_, rfl⟩
      intro format heq
      cases format
      · exact hjson heq
      · exact hxml heq

theorem ensureAllowed_cases (role : Option Role) (method : Method) :
    (Open method role ∧ ensureAllowed role method = .ok ()) ∨
      ∃ sender, role = some sender ∧ method.allows sender = false ∧
        ensureAllowed role method =
          .error
            (.failedPrecondition (method.tag ++ " is not available to a " ++ sender.name)) := by
  cases role with
  | none => exact .inl ⟨nofun, rfl⟩
  | some sender =>
      cases hallows : method.allows sender with
      | true => exact .inl ⟨by simpa [Open] using hallows, by simp [ensureAllowed, hallows]⟩
      | false => exact .inr ⟨sender, rfl, hallows, by simp [ensureAllowed, hallows]⟩

/-- A plan for a frame that clears the checks in front of its body is what its body asks for. -/
theorem plan_of_clears {role : Option Role} {frame : String} {request : Request}
    {format : ContentType} {method : Method} (h : Clears role frame request format method) :
    plan role frame =
      match (format.decode request.body : Except BrokerError (RequestOf method)) with
      | .error error => .error error
      | .ok record =>
        match callFor? method record with
        | some call => .ok (format, call)
        | none => .error (.unimplemented "checkMessageStatusRequest is not supported") := by
  have hrequest := requestOf_of_ok h.envelope
  have hvalidate : request.header.validate = .ok format := by
    rw [validate_eq, if_pos h.version, h.contentType, ContentType.ofTag_tag]
  have hmethod : methodOf request.header.method = .ok method := by
    simp [methodOf, ofTag?_eq_some_iff.mpr h.named]
  have hallowed : ensureAllowed role method = .ok () := by
    rcases ensureAllowed_cases role method with ⟨-, hallowed⟩ | ⟨sender, rfl, hallows, -⟩
    · exact hallowed
    · exact absurd (h.allowed sender rfl) (by simp [hallows])
  simp only [plan, hrequest, hvalidate, hmethod, hallowed, callOf_eq, ok_bind]
  cases (format.decode request.body : Except BrokerError (RequestOf method)) with
  | error error => rfl
  | ok record =>
      dsimp only
      cases callFor? method record <;> rfl

theorem plan_of_admitted {role : Option Role} {frame : String} {format : ContentType}
    {call : ServiceCall} (h : Admitted role frame format call) :
    plan role frame = .ok (format, call) := by
  obtain ⟨request, method, record, hclears, hdecode, hcall⟩ := h
  simp only [plan_of_clears hclears, hdecode, hcall]

theorem plan_of_refused {role : Option Role} {frame : String} {error : BrokerError}
    (h : Refused role frame error) : plan role frame = .error error := by
  cases h with
  | envelope fault henvelope => simp [plan, requestOf_of_error henvelope]
  | version request henvelope hversion =>
      simp [plan, requestOf_of_ok henvelope, validate_eq, hversion]
  | contentType request henvelope hversion htag =>
      rcases ofTag_cases request.header.contentType with ⟨format, hformat, -⟩ | ⟨-, hfails⟩
      · exact absurd hformat (htag format)
      · simp [plan, requestOf_of_ok henvelope, validate_eq, hversion, hfails]
  | method request format henvelope hversion htag hnames =>
      have hnone : Method.ofTag? request.header.method = none := by
        cases hmethod : Method.ofTag? request.header.method with
        | none => rfl
        | some method => exact absurd (ofTag?_eq_some_iff.mp hmethod) (hnames method)
      simp [plan, requestOf_of_ok henvelope, validate_eq, hversion, htag, methodOf, hnone]
  | role request format method sender henvelope hversion htag hnamed hrole hallows =>
      subst hrole
      simp [plan, requestOf_of_ok henvelope, validate_eq, hversion, htag, methodOf,
        ofTag?_eq_some_iff.mpr hnamed, ensureAllowed, hallows]
  | body request format method detail hclears hdecode =>
      simp only [plan_of_clears hclears, hdecode]
  | reserved request format record hclears hdecode =>
      simp only [plan_of_clears hclears, hdecode, callFor?]

/-! ## Every frame is admitted or refused -/

/-- A frame that does not clear the checks in front of its body is refused for the first that it
fails. -/
theorem clears_or_refused (role : Option Role) (frame : String) :
    (∃ request format method, Clears role frame request format method) ∨
      ∃ error, Refused role frame error := by
  cases henvelope : (fromJsonText frame : Except Fault Request) with
  | error fault => exact .inr ⟨_, .envelope fault henvelope⟩
  | ok request =>
      by_cases hversion : request.header.version = "1.0"
      · rcases ofTag_cases request.header.contentType with ⟨format, htag, -⟩ | ⟨htag, -⟩
        · by_cases hnamed : ∃ method, Names request.header.method method
          · obtain ⟨method, hnamed⟩ := hnamed
            rcases ensureAllowed_cases role method with ⟨hopen, -⟩ | ⟨sender, hrole, hallows, -⟩
            · exact .inl ⟨request, format, method, henvelope, hversion, htag, hnamed, hopen⟩
            · exact .inr ⟨_, .role request format method sender henvelope hversion htag hnamed hrole
                hallows⟩
          · exact .inr ⟨_, .method request format henvelope hversion htag (not_exists.mp hnamed)⟩
        · exact .inr ⟨_, .contentType request henvelope hversion htag⟩
      · exact .inr ⟨_, .version request henvelope hversion⟩

theorem admitted_or_refused (role : Option Role) (frame : String) :
    (∃ format call, Admitted role frame format call) ∨ ∃ error, Refused role frame error := by
  rcases clears_or_refused role frame with ⟨request, format, method, hclears⟩ | hrefused
  · cases hdecode : (format.decode request.body : Except BrokerError (RequestOf method)) with
    | error error =>
        obtain ⟨detail, rfl⟩ := exists_of_decode_error hdecode
        exact .inr ⟨_, .body request format method detail hclears hdecode⟩
    | ok record =>
        cases hcall : callFor? method record with
        | some call => exact .inl ⟨format, call, request, method, record, hclears, hdecode, hcall⟩
        | none =>
            obtain rfl := callFor?_eq_none_iff.mp hcall
            exact .inr ⟨_, .reserved request format record hclears hdecode⟩
  · exact .inr hrefused

/-! ## Roles -/

/-- Two callers have the same right to what a frame asks for. -/
def SameRights (frame : String) (role other : Option Role) : Prop :=
  ∀ request : Request, fromJsonText frame = .ok request →
    ∀ method, Names request.header.method method → (Open method role ↔ Open method other)

/-- A method is open to one of the roles. -/
theorem exists_allows (method : Method) : ∃ role, method.allows role = true := by
  cases method
  case subscribeToTopic | unsubscribeFromTopic | getSubscribedTopics | getMessageFromTopic =>
    exact ⟨.subscriber, rfl⟩
  all_goals exact ⟨.publisher, rfl⟩

/-- Callers that a method is not open to are refused alike, since they have the same role. -/
theorem ensureAllowed_congr {role other : Option Role} {method : Method}
    (h : Open method role ↔ Open method other) :
    ensureAllowed role method = ensureAllowed other method := by
  rcases ensureAllowed_cases role method with ⟨hopen, hok⟩ | ⟨sender, rfl, hallows, -⟩
  · rcases ensureAllowed_cases other method with ⟨-, hother⟩ | ⟨sender, rfl, hallows, -⟩
    · rw [hok, hother]
    · exact absurd (h.mp hopen sender rfl) (by simp [hallows])
  · rcases ensureAllowed_cases other method with ⟨hopen, -⟩ | ⟨sender', rfl, hallows', -⟩
    · exact absurd (h.mpr hopen sender rfl) (by simp [hallows])
    · obtain ⟨role, hrole⟩ := exists_allows method
      have hsame : sender = sender' := by
        cases sender <;> cases sender' <;> cases role <;> simp_all
      rw [hsame]

/-- A role matters for nothing but the right to a method. -/
theorem plan_congr {frame : String} {role other : Option Role} (h : SameRights frame role other) :
    plan role frame = plan other frame := by
  cases henvelope : (fromJsonText frame : Except Fault Request) with
  | error fault => simp [plan, requestOf_of_error henvelope]
  | ok request =>
      simp only [plan, requestOf_of_ok henvelope, ok_bind]
      cases request.header.validate with
      | error error => rfl
      | ok format =>
          simp only [ok_bind, methodOf]
          cases hmethod : Method.ofTag? request.header.method with
          | none => rfl
          | some method =>
              have hallowed := ensureAllowed_congr
                (h request henvelope method (ofTag?_eq_some_iff.mp hmethod))
              simp only [ok_bind, hallowed]

end TopicBroker.Router
