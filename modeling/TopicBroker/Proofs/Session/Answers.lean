import TopicBroker.Connection
import TopicBroker.Proofs.Record.Line
import TopicBroker.Proofs.Wire.Lines
import TopicBroker.Session

/-! # What a session answers

A session answers the lines of its client that are not blank, each by one line and in the state that
the answer in front of it left. Errors are answers like others. What it writes has a line for every
response and no line breaks besides, so a client that splits it at the line feeds has the responses
back. -/

namespace TopicBroker.Session

open Wire Record

/-! ## Frames -/

/-- The frames among the lines of a client: those that are not blank, up to the first one that is
not UTF-8. -/
inductive Frames : List (List UInt8) → List String → Prop where
  | ended : Frames [] []
  | unreadable {line lines} : Utf8.decode? line = none → Frames (line :: lines) []
  | blank {line lines text frames} : Utf8.decode? line = some text →
      Text.isAllBlank text = true → Frames lines frames → Frames (line :: lines) frames
  | frame {line lines text frames} : Utf8.decode? line = some text →
      Text.isAllBlank text = false → Frames lines frames → Frames (line :: lines) (text :: frames)

/-- The readable lines that are not blank. -/
def framesOf (lines : List (List UInt8)) : List String :=
  (Lines.readable lines).filter fun text => !Text.isAllBlank text

theorem frames_framesOf (lines : List (List UInt8)) : Frames lines (framesOf lines) := by
  induction lines with
  | nil => exact .ended
  | cons line lines ih =>
      cases htext : Utf8.decode? line with
      | none => simpa [framesOf, Lines.readable, htext] using .unreadable htext
      | some text =>
          cases hblank : Text.isAllBlank text with
          | true => simpa [framesOf, Lines.readable, htext, hblank] using .blank htext hblank ih
          | false => simpa [framesOf, Lines.readable, htext, hblank] using .frame htext hblank ih

/-- Lines have their frames, and no others. -/
theorem frames_iff {lines : List (List UInt8)} {frames : List String} :
    Frames lines frames ↔ frames = framesOf lines := by
  constructor
  · intro h
    induction h with
    | ended => rfl
    | unreadable htext => simp [framesOf, Lines.readable, htext]
    | blank htext hblank _ ih => simpa [framesOf, Lines.readable, htext, hblank] using ih
    | frame htext hblank _ ih => simpa [framesOf, Lines.readable, htext, hblank] using ih
  · rintro rfl
    exact frames_framesOf lines

/-! ## Answers -/

section

variable {m : Type → Type} [Monad m]

theorem answer_of_none (service : Service m) (session : Session) {input : List UInt8}
    (h : Lines.next? input = none) : answer service session input = pure [] := by
  rw [answer]
  split
  · rfl
  · next hsome => rw [h] at hsome; cases hsome

theorem answer_of_some (service : Service m) (session : Session) {input line rest : List UInt8}
    (h : Lines.next? input = some (line, rest)) :
    answer service session input =
      match Utf8.decode? line with
      | none => pure []
      | some text => do
        let reply ← reply service session text
        let replies ← answer service session rest
        return reply ++ replies := by
  rw [answer]
  split
  · next hnone => rw [h] at hnone; cases hnone
  · next hsome =>
      rw [h] at hsome
      cases hsome
      rfl

/-- The frames are routed one after the other, and each response is written as a line. -/
theorem answer_eq [LawfulMonad m] (service : Service m) (session : Session) {input : List UInt8}
    {frames : List String} (h : Frames (Lines.lines input) frames) :
    answer service session input =
      (·.flatMap written) <$> frames.mapM (Router.route service (some session.role)) := by
  -- The recursion is on the bytes that are left, as that of the session is.
  cases hnext : Lines.next? input with
  | none =>
      rw [Lines.lines_of_none hnext] at h
      cases h
      rw [answer_of_none service session hnext]
      simp
  | some first =>
      obtain ⟨line, rest⟩ := first
      have hlength := Lines.length_of_next? hnext
      rw [Lines.lines_of_next? hnext] at h
      rw [answer_of_some service session hnext]
      cases h with
      | unreadable htext => simp [htext]
      | blank htext hblank hframes =>
          have hrest := answer_eq service session hframes
          simp [htext, reply, hblank, hrest]
      | frame htext hblank hframes =>
          have hrest := answer_eq service session hframes
          simp [htext, reply, hblank, hrest, List.mapM_cons]
termination_by input.length

theorem serve_eq [LawfulMonad m] (service : Service m) (session : Session) {input : List UInt8}
    {frames : List String} (h : Frames (Lines.lines input) frames) :
    serve service session input =
      (fun responses => (Response.connected :: responses).flatMap written) <$>
        frames.mapM (Router.route service (some session.role)) := by
  simp [serve, answer_eq service session h]

/-- A text on one line that is not blank is routed and its response written, before what is behind
it is answered. -/
theorem answer_ofText_append [LawfulMonad m] (service : Service m) (session : Session)
    {text : String} (hinline : Json.Inline text.toList) (hblank : Text.isAllBlank text = false)
    (rest : List UInt8) :
    answer service session (Lines.ofText text ++ rest) = do
      let response ← Router.route service (some session.role) text
      let replies ← answer service session rest
      return written response ++ replies := by
  rw [answer_of_some service session (Lines.next?_ofText hinline rest)]
  simp [reply, hblank]

theorem answer_ofText [LawfulMonad m] (service : Service m) (session : Session) {text : String}
    (hinline : Json.Inline text.toList) (hblank : Text.isAllBlank text = false) :
    answer service session (Lines.ofText text) =
      written <$> Router.route service (some session.role) text := by
  have hnil : answer service session [] = pure [] := answer_of_none service session rfl
  have hanswer := answer_ofText_append service session hinline hblank []
  rw [List.append_nil] at hanswer
  simp [hanswer, hnil]

end

/-! ## States -/

section

variable {σ : Type} {service : Service (StateM σ)} {role : Role}

/-- Frames are routed one after the other, each in the state that the one in front of it left. -/
inductive InTurn (service : Service (StateM σ)) (role : Role) :
    σ → List String → List Response → σ → Prop where
  | done (state) : InTurn service role state [] [] state
  | next {state frame response after frames responses final} :
      (Router.route service (some role) frame).run state = (response, after) →
      InTurn service role after frames responses final →
      InTurn service role state (frame :: frames) (response :: responses) final

theorem inTurn_mapM (service : Service (StateM σ)) (role : Role) (frames : List String)
    (state : σ) : InTurn service role state frames
      ((frames.mapM (Router.route service (some role))).run state).1
      ((frames.mapM (Router.route service (some role))).run state).2 := by
  induction frames generalizing state with
  | nil => exact .done state
  | cons frame frames ih =>
      obtain ⟨⟨response, after⟩, hroute⟩ :
          ∃ turn, (Router.route service (some role) frame).run state = turn := ⟨_, rfl⟩
      rw [List.mapM_cons, StateT.run_bind, hroute]
      exact .next hroute (ih after)

/-- Every frame has its response, whatever the ones in front of it were answered. -/
theorem InTurn.length_eq {state final : σ} {frames : List String} {responses : List Response}
    (h : InTurn service role state frames responses final) :
    responses.length = frames.length := by
  induction h with
  | done => rfl
  | next _ _ ih => simp [ih]

end

/-! ## What is written -/

theorem exact_response : (Structured.shape Response).Exact Kind.Exact := by
  decide

theorem written_eq : written = fun response => Lines.ofText (toLine response) :=
  rfl

/-- The lines that are written bring the responses to whoever splits them at the line feeds. -/
structure ReadBack (responses : List Response) (output : List UInt8) : Prop where
  joined : output =
    responses.flatMap fun response => Utf8.encode (toLine response) ++ [Lines.lineFeed]
  unbroken : ∀ response ∈ responses, ∀ b ∈ Utf8.encode (toLine response), 0x20 ≤ b.toNat
  decoded : (Lines.lines output).map Connection.responseOf = responses.map .ok

theorem responseOf_encode (response : Response) :
    Connection.responseOf (Utf8.encode (toLine response)) = .ok response := by
  simp [Connection.responseOf, ofLine_toLine exact_response]

theorem readBack_written (responses : List Response) :
    ReadBack responses (responses.flatMap written) := by
  have hlines : Lines.lines (responses.flatMap written) =
      (responses.map toLine).map Utf8.encode := by
    have hinline : ∀ text ∈ responses.map toLine, Json.Inline text.toList := by
      intro text htext
      obtain ⟨response, -, rfl⟩ := List.mem_map.mp htext
      exact inline_toLine exact_response response
    rw [← Lines.lines_flatMap_ofText hinline, List.flatMap_map]
    exact congrArg (fun write => Lines.lines (responses.flatMap write)) written_eq
  refine ⟨congrArg responses.flatMap written_eq, ?_, ?_⟩
  · intro response _ b hb
    exact Utf8.le_of_mem_encode (inline_toLine exact_response response) hb
  · simp only [hlines, List.map_map, Function.comp_def, responseOf_encode]

/-! ## Sessions -/

/-- What is written on a connection is the acknowledgement and the responses to the given frames. -/
structure Answers (session : Session) (input : List UInt8) (frames : List String) : Prop where
  /-- The frames are routed one after the other, and nothing else is done. -/
  routed : ∀ (m : Type → Type) [Monad m] [LawfulMonad m] (service : Service m),
    serve service session input =
      (fun responses => (Response.connected :: responses).flatMap written) <$>
        frames.mapM (Router.route service (some session.role))
  /-- Each is routed in the state that the one in front of it left, errors or not, and the responses
  are read back from what is written. -/
  inTurn : ∀ (σ : Type) (service : Service (StateM σ)) (start : σ), ∃ responses output final,
    (serve service session input).run start = (output, final) ∧
      InTurn service session.role start frames responses final ∧
      responses.length = frames.length ∧
      ReadBack (.connected :: responses) output

/-- A session answers the lines of a stream that are not blank, one after the other, up to the end
of the stream or the first line that is not UTF-8. A stream has these lines and frames only. -/
theorem answers_frames (session : Session) (input : List UInt8) :
    ∃ lines frames, (∀ found, Lines.Cut input found ↔ found = lines) ∧
      (∀ found, Frames lines found ↔ found = frames) ∧ Answers session input frames := by
  have hframes := frames_framesOf (Lines.lines input)
  refine ⟨_, _, fun _ => Lines.cut_iff, fun _ => frames_iff, ?_, ?_⟩
  · intro m _ _ service
    exact serve_eq service session hframes
  · intro σ service start
    have hturn := inTurn_mapM service session.role (framesOf (Lines.lines input)) start
    refine ⟨_, _, _, ?_, hturn, hturn.length_eq, readBack_written _⟩
    rw [serve_eq service session hframes]
    rfl

end TopicBroker.Session
