import TopicBroker.Text.Utf8

/-!
# Lines

Frames travel as lines of text. A line ends before a line feed, and a carriage return in front of
the line feed goes with it. What is behind the last line feed is a line too, unless it is empty.
-/

namespace TopicBroker.Wire.Lines

def lineFeed : UInt8 := 10

/-- The byte that may stand in front of a line feed. -/
def carriageReturn : UInt8 := 13

/-- The bytes of a line that a line feed ended. -/
def chop (line : List UInt8) : List UInt8 :=
  if line.getLast? = some carriageReturn then line.dropLast else line

/-- The bytes in front of the first line feed, and those behind it, if there is one. -/
def break? : List UInt8 → Option (List UInt8 × List UInt8)
  | [] => none
  | b :: bytes =>
    if b = lineFeed then some ([], bytes)
    else (break? bytes).map fun (line, rest) => (b :: line, rest)

/-- The first line of a stream, and what is behind it. -/
def next? (bytes : List UInt8) : Option (List UInt8 × List UInt8) :=
  match break? bytes with
  | some (line, rest) => some (chop line, rest)
  | none => if bytes.isEmpty then none else some (bytes, [])

theorem length_of_break? : ∀ {bytes line rest : List UInt8}, break? bytes = some (line, rest) →
    rest.length < bytes.length
  | [], _, _, h => by simp [break?] at h
  | b :: bytes, line, rest, h => by
    unfold break? at h
    split at h
    · simp only [Option.some.injEq, Prod.mk.injEq] at h
      simp [← h.2]
    · obtain ⟨⟨l, r⟩, hr, e⟩ := Option.map_eq_some_iff.mp h
      have hlt := length_of_break? hr
      simp only [Prod.mk.injEq] at e
      simp only [List.length_cons, ← e.2]
      omega

/-- Every line takes bytes off the stream. -/
theorem length_of_next? {bytes line rest : List UInt8} (h : next? bytes = some (line, rest)) :
    rest.length < bytes.length := by
  unfold next? at h
  split at h
  · next hb =>
    simp only [Option.some.injEq, Prod.mk.injEq] at h
    exact h.2 ▸ length_of_break? hb
  · split at h
    · simp at h
    · next hne =>
      simp only [Option.some.injEq, Prod.mk.injEq] at h
      cases bytes with
      | nil => simp at hne
      | cons b bytes => simp [← h.2]

def lines (bytes : List UInt8) : List (List UInt8) :=
  match _h : next? bytes with
  | none => []
  | some (line, rest) => line :: lines rest
termination_by bytes.length
decreasing_by exact length_of_next? _h

/-- The texts of lines, up to the first one that is not UTF-8. -/
def readable : List (List UInt8) → List String
  | [] => []
  | line :: rest =>
    match Utf8.decode? line with
    | some text => text :: readable rest
    | none => []

/-- The texts of the lines of a stream, up to the first one that is not UTF-8. -/
def texts (bytes : List UInt8) : List String :=
  readable (lines bytes)

def ofText (text : String) : List UInt8 :=
  Utf8.encode text ++ [lineFeed]

example : next? [97, 13, 10, 98, 13] = some ([97], [98, 13]) := by decide
example : next? [98, 13] = some ([98, 13], []) := by decide

end TopicBroker.Wire.Lines
