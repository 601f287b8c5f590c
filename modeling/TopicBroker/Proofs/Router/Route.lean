import TopicBroker.Proofs.Record.LeftOut
import TopicBroker.Proofs.Router.Admission

/-! # Routed calls

What the router does for any service, and how often: one call for a frame that is admitted, whose
answer is written as the response, and none for a frame that is refused. -/

namespace TopicBroker.Router

open Wire Record

/-! ## Calls on record -/

section

variable {m : Type → Type} [Monad m]

/-- A service that does the same and keeps a record of its calls. -/
def recording (service : Service m) : Service (StateT (List ServiceCall) m) := fun call => do
  modify (· ++ [call])
  StateT.lift (service call)

theorem run_recording [LawfulMonad m] (service : Service m) (call : ServiceCall)
    (before : List ServiceCall) :
    (recording service call).run before =
      (fun answer => (answer, before ++ [call])) <$> service call := by
  simp [recording]

end

/-- A frame from a caller makes the calls, in order, of every service, and no others. Keeping a
record of them changes no response. -/
def Makes (role : Option Role) (frame : String) (calls : List ServiceCall) : Prop :=
  ∀ (m : Type → Type) [Monad m] [LawfulMonad m] (service : Service m) (before : List ServiceCall),
    (route (recording service) role frame).run before =
      (fun response => (response, before ++ calls)) <$> route service role frame

/-- A frame does not make different calls. -/
theorem Makes.unique {role : Option Role} {frame : String} {calls others : List ServiceCall}
    (h : Makes role frame calls) (hothers : Makes role frame others) : calls = others := by
  let service : Service Id := fun _ => .error (.internal "")
  have hsame := (h Id service []).symm.trans (hothers Id service [])
  exact congrArg Prod.snd hsame

/-! ## Responses -/

/-- The response that tells the answer to a call. -/
def respond (format : ContentType) (call : ServiceCall) :
    Except BrokerError call.Answer → Response
  | .ok answer => .ok (call.body format answer)
  | .error error => .ofError error

section

variable {m : Type → Type} [Monad m] {role : Option Role} {frame : String}

theorem route_of_plan_eq_ok [LawfulMonad m] (service : Service m) {format : ContentType}
    {call : ServiceCall} (h : plan role frame = .ok (format, call)) :
    route service role frame = respond format call <$> service call := by
  simp only [route, h]
  rw [map_eq_pure_bind]
  congr 1
  funext answer
  cases answer <;> rfl

theorem route_of_plan_eq_error (service : Service m) {error : BrokerError}
    (h : plan role frame = .error error) :
    route service role frame = pure (.ofError error) := by
  simp only [route, h]

end

variable {role other : Option Role} {frame : String}

theorem makes_of_admitted {format : ContentType} {call : ServiceCall}
    (h : Admitted role frame format call) : Makes role frame [call] := by
  intro m _ _ service before
  have hplan := plan_of_admitted h
  rw [route_of_plan_eq_ok (recording service) hplan, route_of_plan_eq_ok service hplan]
  rw [StateT.run_map, run_recording, Functor.map_map, Functor.map_map]

theorem makes_of_refused {error : BrokerError} (h : Refused role frame error) :
    Makes role frame [] := by
  intro m _ _ service before
  have hplan := plan_of_refused h
  rw [route_of_plan_eq_error (recording service) hplan, route_of_plan_eq_error service hplan]
  simp

theorem makes_one_iff {call : ServiceCall} :
    Makes role frame [call] ↔ ∃ format, Admitted role frame format call := by
  constructor
  · intro h
    rcases admitted_or_refused role frame with ⟨format, found, hadmitted⟩ | ⟨error, hrefused⟩
    · have hcalls := h.unique (makes_of_admitted hadmitted)
      obtain rfl := List.singleton_inj.mp hcalls
      exact ⟨format, hadmitted⟩
    · have hcalls := h.unique (makes_of_refused hrefused)
      cases hcalls
  · rintro ⟨format, hadmitted⟩
    exact makes_of_admitted hadmitted

theorem makes_none_iff :
    Makes role frame [] ↔ ¬ ∃ format call, Admitted role frame format call := by
  constructor
  · rintro h ⟨format, call, hadmitted⟩
    have hcalls := h.unique (makes_of_admitted hadmitted)
    cases hcalls
  · intro h
    rcases admitted_or_refused role frame with hadmitted | ⟨error, hrefused⟩
    · exact absurd hadmitted h
    · exact makes_of_refused hrefused

/-! ## Times that are left out -/

/-- A body leaves a field of its message out: no member of that name and nothing at its place, or no
element of that name. -/
def LeavesOut (body : String) (field : String) (place : Nat) : ContentType → Prop
  | .json => ∀ message ∈ (Json.read body).value.given "message" 1, message.given field place = []
  | .xml => ∀ root, [field.toList, "message".toList, root] ∉ Xml.pathsOf body

theorem absent_of_leavesOut_json {body : String} {r : PublishMessageRequest}
    (h : ContentType.json.decode body = .ok r) :
    Row.All (fun place f value => LeavesOut body f.name place .json → f.absent = .ok value) 0
      (Flat.schema MessageBody).fields (Flat.toRow r.message) := by
  obtain ⟨row, hrow, -, rfl⟩ := fromJsonText_eq_ok_iff.mp (eq_ok_of_mapError h)
  obtain ⟨-, hmessage, -⟩ := comes_of_readJson (by decide) hrow
  rcases hmessage with ⟨message, hgiven, hread⟩ | ⟨-, habsent⟩
  · have hfields : (Flat.schema MessageBody).readJson .streamed Leaf.readJson message =
        .ok row.2.1 := hread
    have hcomes := comes_of_readJson (by decide) hfields
    refine hcomes.imp ?_
    rintro place f - value (⟨json, hjson, -⟩ | ⟨-, habsent⟩) hout
    · rw [hout message hgiven] at hjson
      cases hjson
    · exact habsent
  · cases habsent

theorem absent_of_leavesOut_xml {body : String} {r : PublishMessageRequest}
    (h : ContentType.xml.decode body = .ok r) :
    Row.All (fun place f value => LeavesOut body f.name place .xml → f.absent = .ok value) 0
      (Flat.schema MessageBody).fields (Flat.toRow r.message) := by
  obtain ⟨⟨event, start⟩, hstart, hroot⟩ := exists_of_bind_eq_ok (eq_ok_of_mapError h)
  have hfollows := Xml.Cursor.follows_next? [] (eq_some_of_orUnreadable hstart)
  cases event with
  | text | closed | finished => cases hroot
  | opened root =>
      obtain ⟨⟨row, rest⟩, hrow, hroot⟩ := exists_of_bind_eq_ok hroot
      cases hroot
      have hinside := List.Subset.trans hfollows.2 (Xml.Cursor.paths_ofText body)
      obtain ⟨⟨-, hmessage, -⟩, -⟩ :=
        held_of_readXml consumes_kind (Xml.localName root.name) [] hrow
      rcases hmessage with ⟨-, tag, c, behind, hsubset, hread⟩ | habsent
      · obtain ⟨hheld, -⟩ := held_of_readXml (fun leaf tag => consumes_leaf tag leaf)
          "message".toList [Xml.localName root.name] hread
        refine hheld.imp ?_
        rintro place f - value (⟨hmem, -⟩ | habsent) hout
        · exact absurd (hinside (hsubset hmem)) (hout (Xml.localName root.name))
        · exact habsent
      · cases habsent

/-- A field of a message that a body leaves out has the value that stands in for it. -/
theorem absent_of_leavesOut {format : ContentType} {body : String} {r : PublishMessageRequest}
    (h : format.decode body = .ok r) :
    Row.All (fun place f value => LeavesOut body f.name place format → f.absent = .ok value) 0
      (Flat.schema MessageBody).fields (Flat.toRow r.message) := by
  cases format with
  | json => exact absent_of_leavesOut_json h
  | xml => exact absent_of_leavesOut_xml h

/-- The draft of a message that leaves a time out has an empty one. -/
theorem draft_of_leavesOut {format : ContentType} {body : String} {r : PublishMessageRequest}
    (h : format.decode body = .ok r) :
    (LeavesOut body "createdAt" 1 format → r.message.createdAt = "") ∧
      (LeavesOut body "expiresAt" 2 format → r.message.expiresAt = "") := by
  obtain ⟨-, hcreated, hexpires, -⟩ := absent_of_leavesOut h
  constructor
  · intro hout
    exact (Except.ok.inj (hcreated hout)).symm
  · intro hout
    exact (Except.ok.inj (hexpires hout)).symm

/-! ## What the router does -/

/-- A caller is admitted if its frame clears the checks in front of the body, the method is not the
reserved one, and the body holds its record. -/
theorem exists_admitted_iff :
    (∃ format call, Admitted role frame format call) ↔
      ∃ request format method, Clears role frame request format method ∧
        method ≠ .checkMessageStatus ∧
        ∃ record : RequestOf method, format.decode request.body = .ok record := by
  constructor
  · rintro ⟨format, call, request, method, record, hclears, hdecode, hcall⟩
    refine ⟨request, format, method, hclears, ?_, record, hdecode⟩
    intro hmethod
    rw [callFor?_eq_none_iff.mpr hmethod] at hcall
    cases hcall
  · rintro ⟨request, format, method, hclears, hmethod, record, hdecode⟩
    obtain ⟨call, hcall⟩ := Option.ne_none_iff_exists'.mp (mt callFor?_eq_none_iff.mp hmethod)
    exact ⟨format, call, request, method, record, hclears, hdecode, hcall⟩

theorem exists_makes_one_iff :
    (∃ call, Makes role frame [call]) ↔ ∃ format call, Admitted role frame format call := by
  simp only [makes_one_iff]
  exact exists_comm

/-- A request to publish is carried out with the times in its body, or empty ones. -/
theorem draft_of_makes {request : Request} {format : ContentType} {publisher : ClientId}
    {draft : Draft} (henvelope : fromJsonText frame = .ok request)
    (htag : request.header.contentType = format.tag)
    (h : Makes role frame [.publish publisher draft]) :
    (LeavesOut request.body "createdAt" 1 format → draft.createdAt = some "") ∧
      (LeavesOut request.body "expiresAt" 2 format → draft.expiresAt = some "") := by
  obtain ⟨format', request', method, record, hclears, hdecode, hcall⟩ := makes_one_iff.mp h
  obtain rfl := Except.ok.inj (henvelope.symm.trans hclears.envelope)
  obtain rfl := tag_inj (htag.symm.trans hclears.contentType)
  cases method with
  | publishMessage =>
      obtain ⟨hcreated, hexpires⟩ := draft_of_leavesOut hdecode
      cases hcall
      exact ⟨fun hout => congrArg some (hcreated hout), fun hout => congrArg some (hexpires hout)⟩
  | _ => cases hcall

/-- What the router does with a frame from a caller, for any service. -/
structure RouteSpec (role : Option Role) (frame : String) : Prop where
  /-- One call is made if and only if every check is passed, the method is not reserved and the body
  holds its record. -/
  reaches : (∃ call, Makes role frame [call]) ↔
    ∃ request format method, Clears role frame request format method ∧
      method ≠ .checkMessageStatus ∧
      ∃ record : RequestOf method, format.decode request.body = .ok record
  /-- The call is the one that the method names, with the arguments in the body. -/
  call : ∀ call, Makes role frame [call] ↔ ∃ format, Admitted role frame format call
  /-- Otherwise no call is made. -/
  calm : Makes role frame [] ↔ ¬ ∃ call, Makes role frame [call]
  /-- The response tells the answer of the call. -/
  answered : ∀ (m : Type → Type) [Monad m] [LawfulMonad m] (service : Service m) format call,
    Admitted role frame format call →
      route service role frame = respond format call <$> service call
  /-- If checks fail, the response tells the first of them. -/
  refused : ∀ (m : Type → Type) [Monad m] [LawfulMonad m] (service : Service m) error,
    Refused role frame error → route service role frame = pure (.ofError error)
  /-- No frame goes without one of the two. -/
  settled : (∃ format call, Admitted role frame format call) ∨ ∃ error, Refused role frame error
  /-- A caller with the same right to the method gets the same response, whatever its role. -/
  anyRole : ∀ other, SameRights frame role other →
    ∀ (m : Type → Type) [Monad m] [LawfulMonad m] (service : Service m),
      route service role frame = route service other frame
  /-- Times that are left out are passed on as empty ones. -/
  leftOut : ∀ (request : Request) (format : ContentType) publisher (draft : Draft),
    fromJsonText frame = .ok request → request.header.contentType = format.tag →
    Makes role frame [.publish publisher draft] →
      (LeavesOut request.body "createdAt" 1 format → draft.createdAt = some "") ∧
        (LeavesOut request.body "expiresAt" 2 format → draft.expiresAt = some "")

/-- The router reaches a service exactly when it may, and at most once. -/
theorem route_spec (role : Option Role) (frame : String) : RouteSpec role frame where
  reaches := exists_makes_one_iff.trans exists_admitted_iff
  call _ := makes_one_iff
  calm := by rw [exists_makes_one_iff, makes_none_iff]
  answered _ _ _ service _ _ h := route_of_plan_eq_ok service (plan_of_admitted h)
  refused _ _ _ service _ h := route_of_plan_eq_error service (plan_of_refused h)
  settled := admitted_or_refused role frame
  anyRole other hrights _ _ _ service := by simp only [route, plan_congr hrights]
  leftOut _ _ _ _ henvelope htag h := draft_of_makes henvelope htag h

end TopicBroker.Router
