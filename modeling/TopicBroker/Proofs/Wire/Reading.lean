import TopicBroker.Proofs.Json.Spelling
import TopicBroker.Proofs.Record.Rewriting
import TopicBroker.Proofs.Wire.Records
import TopicBroker.Router

/-! # Texts of records

A text spells one JSON value. What is read of it depends on the known members of that value only, so
a record has many texts: their white space, the order of their members and their unknown members are
of no matter, nor is whether the record is an object or the list of its fields. A text in which a
known member occurs twice is no text of a record. -/

namespace TopicBroker.Wire

open Record

/-- Records of a type are read by their known members. -/
structure ReadByMembers (α : Type) [Structured α] : Prop where
  /-- Every record is read from the text that it is written as. -/
  written : ∀ x : α, fromJsonText (toJsonText x) = .ok x
  /-- A text that is read spells one value, in which no known member occurs twice. -/
  spelled : ∀ text (x : α), fromJsonText text = .ok x →
    ∃ json, json.Spells text.toList ∧ (∀ other : Json, other.Spells text.toList → other = json) ∧
      ¬ (Structured.shape α).Repeats json
  /-- Objects with the same values for every known name are read as the same record, whatever else
  they hold that makes sense. -/
  known : ∀ text text' members members' (x : α), (Json.object members).Spells text.toList →
    (Json.object members').Spells text'.toList → Sound members' →
    (∀ f ∈ (Structured.shape α).fields, valuesOf f.name members = valuesOf f.name members') →
    fromJsonText text = .ok x → fromJsonText text' = .ok x
  /-- Another text is read as the same record if it spells the same value, or one that the value is
  rewritten to. -/
  kept : ∀ text text' (json json' : Json) (x : α), json.Spells text.toList →
    json'.Spells text'.toList → (Structured.shape α).Rewrites json json' →
    fromJsonText text = .ok x → fromJsonText text' = .ok x
  /-- A text is refused if a known member occurs twice in its value. -/
  refused : ∀ text (json : Json), json.Spells text.toList → (Structured.shape α).Repeats json →
    ∃ fault, (fromJsonText text : Except Fault α) = .error fault

section

variable {α : Type} [Structured α] {text : String} {json : Json}

/-- A text of a value is read as the value is. -/
theorem fromJsonText_of_spells (h : json.Spells text.toList) {x : α} :
    fromJsonText text = .ok x ↔
      ∃ row, (Structured.shape α).readJson .streamed (Kind.readJson .streamed) json = .ok row ∧
        Structured.ofRow row = x := by
  rw [fromJsonText_eq_ok_iff, Json.read_of_spells h]
  simp only [true_and]

theorem exists_spells_of_fromJsonText {x : α} (h : fromJsonText text = .ok x) :
    ∃ json : Json, json.Spells text.toList := by
  obtain ⟨row, hrow, hcomplete, -⟩ := fromJsonText_eq_ok_iff.mp h
  have hwhole := Schema.whole_of_readJson (Kind.readsWhole .streamed) hrow
  cases hread : Json.read text with
  | mk value complete =>
      rw [hread] at hcomplete hwhole
      obtain rfl : complete = true := hcomplete
      exact ⟨value, Json.spells_of_read hread hwhole⟩

theorem ne_ok_of_repeats (hexact : (Structured.shape α).Exact Kind.Exact)
    (hjson : json.Spells text.toList) (hrepeats : (Structured.shape α).Repeats json) (x : α) :
    fromJsonText text ≠ .ok x := by
  intro h
  obtain ⟨row, hrow, -⟩ := (fromJsonText_of_spells hjson).mp h
  exact Shape.not_read_of_repeats hexact hrepeats hrow

theorem readByMembers (hexact : (Structured.shape α).Exact Kind.Exact) : ReadByMembers α where
  written := fromJsonText_toJsonText hexact
  spelled text x h := by
    obtain ⟨json, hjson⟩ := exists_spells_of_fromJsonText h
    refine ⟨json, hjson, ?_, fun hrepeats => ne_ok_of_repeats hexact hjson hrepeats x h⟩
    intro other hother
    have hsame := (Json.read_of_spells hother).symm.trans (Json.read_of_spells hjson)
    exact congrArg Json.Document.value hsame
  known text text' members members' x hmembers hmembers' hsound hvalues h := by
    obtain ⟨row, hrow, hx⟩ := (fromJsonText_of_spells hmembers).mp h
    refine (fromJsonText_of_spells hmembers').mpr ⟨row, ?_, hx⟩
    refine readJson_object_congr (Kind.readsWhole .streamed) hexact.1 (fun _ => hsound) ?_ hrow
    intro f hf value htakes
    rwa [← hvalues f hf]
  kept text text' json json' x hjson hjson' hrewrites h := by
    obtain ⟨row, hrow, hx⟩ := (fromJsonText_of_spells hjson).mp h
    exact (fromJsonText_of_spells hjson').mpr
      ⟨row, Shape.readJson_of_rewrites hexact hrewrites hrow, hx⟩
  refused text json hjson hrepeats := by
    cases h : (fromJsonText text : Except Fault α) with
    | error fault => exact ⟨fault, rfl⟩
    | ok x => exact absurd h (ne_ok_of_repeats hexact hjson hrepeats x)

end

/-- Every record that travels is read by its known members, whether it is a frame, a line or the
body of a frame. -/
theorem records_readByMembers :
    (∀ type : RecordType, ReadByMembers type.Value) ∧
    (∀ (type : RecordType) body (x : type.Value),
      ContentType.json.decode body = .ok x ↔ fromJsonText body = .ok x) ∧
    (∀ frame request, Router.requestOf frame = .ok request ↔ fromJsonText frame = .ok request) ∧
    (∀ line (response : Response),
      ofLine line = .ok response ↔ fromJsonText line = .ok response) :=
  ⟨fun type => readByMembers type.exact, fun _ _ _ => mapError_eq_ok_iff,
    fun _ _ => mapError_eq_ok_iff, fun _ _ => mapError_eq_ok_iff⟩

/-- A request that leaves out what it can is read as before with an unknown member and its header in
another order, and as a list behind a line feed. It is refused if its header repeats the version. -/
theorem records_readByMembers_shortRequest :
    let version : Option String × Json := (some "version", .ofText "1.0")
    let format : Option String × Json := (some "contentType", .ofText "json")
    let method : Option String × Json := (some "method", .ofText "stats")
    let request : Request := ⟨⟨"1.0", "", "json", "stats"⟩, ""⟩
    let short := Json.object [(some "header", .object [version, format, method])]
    let other := Json.object
      [(some "trace", .array [.null]), (some "header", .object [method, version, format])]
    let list := Json.array
      [.array [.ofText "1.0", .ofText "", .ofText "json", .ofText "stats"], .ofText ""]
    let twice := Json.object [(some "header", .object [version, format, version, method])]
    fromJsonText short.render = .ok request ∧ fromJsonText other.render = .ok request ∧
    fromJsonText ("\n" ++ list.render) = .ok request ∧
    ∃ fault, (fromJsonText twice.render : Except Fault Request) = .error fault := by
  intro version format method request short other list twice
  have hshort : short.Spells short.render.toList := by
    apply Json.spells_render
    simp [short, version, format, method, Json.ofText, Json.IsPlain, Json.AllMembersPlain]
  have hother : other.Spells other.render.toList := by
    apply Json.spells_render
    simp [other, version, format, method, Json.ofText, Json.IsPlain, Json.AllPlain,
      Json.AllMembersPlain]
  have hlist : list.Spells ("\n" ++ list.render).toList := by
    rw [String.toList_append]
    apply Json.Spells.front (by simp [Json.Spaces, Json.isSpace])
    apply Json.spells_render
    simp [list, Json.ofText, Json.IsPlain, Json.AllPlain]
  have htwice : twice.Spells twice.render.toList := by
    apply Json.spells_render
    simp [twice, version, format, method, Json.ofText, Json.IsPlain, Json.AllMembersPlain]
  have hread : fromJsonText short.render = .ok request :=
    (fromJsonText_of_spells hshort).mpr ⟨_, rfl, rfl⟩
  obtain ⟨hrequests, -⟩ := records_readByMembers
  refine ⟨hread, ?_, ?_, ?_⟩
  · refine (hrequests .request).kept _ _ short other request hshort hother ?_ hread
    have hheader : Kind.Rewrites (.record (Flat.schema Header))
        (.object [version, format, method]) (.object [method, version, format]) :=
      .reordered (List.perm_append_comm : ([version, format] ++ [method]).Perm _)
    have hrequest : (Structured.shape Request).Rewrites short
        (.object [(some "header", .object [method, version, format])]) :=
      .single (.inMember [] [] List.mem_cons_self hheader)
    exact hrequest.tail (.extended [] _ (by decide) rfl)
  · refine (hrequests .request).kept _ _ short list request hshort hlist ?_ hread
    have hheader : Kind.Rewrites (.record (Flat.schema Header))
        (.object [version, format, method])
        (.array [.ofText "1.0", .ofText "", .ofText "json", .ofText "stats"]) :=
      .listed rfl
    have hrequest : (Structured.shape Request).Rewrites short
        (.object [(some "header",
          .array [.ofText "1.0", .ofText "", .ofText "json", .ofText "stats"])]) :=
      .single (.inMember [] [] List.mem_cons_self hheader)
    exact hrequest.tail (.listed rfl)
  · refine (hrequests .request).refused _ twice htwice ?_
    have hheader : Kind.Repeats (.record (Flat.schema Header))
        (.object [version, format, version, method]) :=
      .twice 0 rfl (by decide)
    exact .within 0 rfl (List.mem_singleton_self _) hheader

end TopicBroker.Wire
