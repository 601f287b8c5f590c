import TopicBroker.Proofs.Base64
import TopicBroker.Proofs.Record.LeftOut
import TopicBroker.Proofs.Record.Line
import TopicBroker.Proofs.Wire.Records

/-! # Envelopes have one text for their body

Requests and responses are read back from their lines. A text that is read as a response gives a
body in one of a few ways: it leaves it out, it gives null, or it gives the text of the bytes in
base64. No other body is read, so that the bytes of a response tell the text of its body. -/

namespace TopicBroker.Wire

open Record

/-- An envelope is read back from its text, and its text is one line. -/
structure Travels {α : Type} [Structured α] (x : α) : Prop where
  back : fromJsonText (toJsonText x) = .ok x
  inline : Json.Inline (toJsonText x).toList

/-- What a text gives for the body of a response. -/
def givenBodies (text : String) : List Json :=
  (Json.read text).value.given "body" 1

/-- The body is left out, or null, if there are no bytes, or else it is their text in base64. -/
def StandsFor (given : List Json) (body : List UInt8) : Prop :=
  (given = [] ∨ given = [.null]) ∧ body = [] ∨
    ∃ s, given = [.string (some s)] ∧ s.toList = Base64.encode body

theorem travels {α : Type} [Structured α] (h : (Structured.shape α).Exact Kind.Exact) (x : α) :
    Travels x :=
  ⟨fromJsonText_toJsonText h x, inline_toLine h x⟩

/-! ## Bodies that are read -/

/-- Bytes are read from null, if there are none, and from their text in base64. -/
theorem of_readJson_bytes {json : Json} {bytes : List UInt8}
    (h : Leaf.bytes.readJson json = .ok bytes) :
    json = .null ∧ bytes = [] ∨ ∃ s, json = .string (some s) ∧ s.toList = Base64.encode bytes := by
  cases json with
  | null => exact .inl ⟨rfl, (Except.ok.inj h).symm⟩
  | string s =>
      cases s with
      | none => cases h
      | some s =>
          obtain ⟨_, hs, hbytes⟩ := exists_of_bind_eq_ok h
          obtain rfl := Except.ok.inj hs
          cases hdecode : Base64.decode? s.toList with
          | none =>
              rw [hdecode] at hbytes
              cases hbytes
          | some found =>
              rw [hdecode] at hbytes
              obtain rfl := Except.ok.inj hbytes
              exact .inr ⟨s, rfl, Base64.decode?_eq_some_iff.mp hdecode⟩
  | bool _ | number _ | array _ | object _ | broken => cases h

theorem standsFor_of_fromJsonText {text : String} {response : Response}
    (h : fromJsonText text = .ok response) : StandsFor (givenBodies text) response.body := by
  obtain ⟨row, hrow, -, rfl⟩ := fromJsonText_eq_ok_iff.mp h
  have hnames : ((Structured.shape Response).fields.map (·.name)).Nodup := by decide
  obtain ⟨-, hbody, -⟩ := comes_of_readJson hnames hrow
  have hlength : (givenBodies text).length ≤ 1 := length_given_le_one hrow (by decide) 1
  rcases hbody with ⟨json, hjson, hread⟩ | ⟨hnone, habsent⟩
  · have hgiven : givenBodies text = [json] := eq_singleton_of_mem hjson hlength
    rcases of_readJson_bytes hread with ⟨rfl, hbytes⟩ | ⟨s, rfl, hbytes⟩
    · exact .inl ⟨.inr hgiven, hbytes⟩
    · exact .inr ⟨s, hgiven, hbytes⟩
  · exact .inl ⟨.inl hnone, (Except.ok.inj habsent).symm⟩

/-- A body that is a text is the text of the bytes. -/
theorem toList_of_mem_givenBodies {text : String} {response : Response}
    (h : fromJsonText text = .ok response) {s : String}
    (hs : Json.string (some s) ∈ givenBodies text) : s.toList = Base64.encode response.body := by
  obtain ⟨hgiven | hgiven, -⟩ | ⟨given, hgiven, hbytes⟩ := standsFor_of_fromJsonText h
  · rw [hgiven] at hs
    cases hs
  · rw [hgiven, List.mem_singleton] at hs
    cases hs
  · rw [hgiven, List.mem_singleton] at hs
    cases hs
    exact hbytes

/-- Requests and responses travel as they are. A response is read with the bytes that its body
stands for, so that different texts for a body are read as different bytes, and a text that is not
canonical is not read. -/
theorem envelopes_canonical :
    (∀ request : Request, Travels request) ∧
    (∀ response : Response, Travels response) ∧
    (∀ text (response : Response), fromJsonText text = .ok response →
      StandsFor (givenBodies text) response.body) ∧
    (∀ text (response : Response) s, fromJsonText text = .ok response →
      Json.string (some s) ∈ givenBodies text →
      ∀ text' (response' : Response) s', fromJsonText text' = .ok response' →
        Json.string (some s') ∈ givenBodies text' → s ≠ s' → response.body ≠ response'.body) ∧
    (∀ text s, Json.string (some s) ∈ givenBodies text → ¬ Base64.Canonical s.toList →
      ∃ fault, (fromJsonText text : Except Fault Response) = .error fault) := by
  refine ⟨travels (RecordType.exact .request), travels (RecordType.exact .response),
    fun _ _ => standsFor_of_fromJsonText, ?_, ?_⟩
  · intro text response s hread hs text' response' s' hread' hs' hne hbody
    have htext := toList_of_mem_givenBodies hread hs
    have htext' := toList_of_mem_givenBodies hread' hs'
    rw [← hbody, ← htext] at htext'
    exact hne (String.toList_inj.mp htext'.symm)
  · intro text s hs hcanonical
    cases hread : (fromJsonText text : Except Fault Response) with
    | error fault => exact ⟨fault, rfl⟩
    | ok response =>
        have hwritten := toList_of_mem_givenBodies hread hs
        exact absurd (Base64.canonical_iff.mpr ⟨_, hwritten⟩) hcanonical

/-- The last letter of the text for two bytes leaves two bits over, which have to be zero. -/
theorem envelopes_canonical_leftOver :
    let text := toJsonText (Response.ok "hi")
    let other := (Json.ofMembers [("body", .ofText "aGl=")]).render
    fromJsonText text = .ok (Response.ok "hi") ∧
    StandsFor (givenBodies text) (Response.ok "hi").body ∧
    Json.string (some "aGl=") ∈ givenBodies other ∧ ¬ Base64.Canonical "aGl=".toList ∧
    ∃ fault, (fromJsonText other : Except Fault Response) = .error fault := by
  intro text other
  have hread : fromJsonText text = .ok (Response.ok "hi") :=
    (travels (RecordType.exact .response) (Response.ok "hi")).back
  have hgiven : Json.string (some "aGl=") ∈ givenBodies other := by
    have hplain : (Json.ofMembers [("body", .ofText "aGl=")]).IsPlain := ⟨rfl, trivial, trivial⟩
    rw [givenBodies, Json.read_render hplain]
    exact List.mem_cons_self
  have hloose : ¬ Base64.Canonical "aGl=".toList := by
    rw [Base64.canonical_iff]
    rintro ⟨bytes, hbytes⟩
    have hdecode : Base64.decode? "aGl=".toList = none := by decide
    rw [Base64.decode?_eq_some_iff.mpr hbytes] at hdecode
    cases hdecode
  obtain ⟨-, -, hstands, -, hrejected⟩ := envelopes_canonical
  exact ⟨hread, hstands text _ hread, hgiven, hloose, hrejected other _ hgiven hloose⟩

end TopicBroker.Wire
