import TopicBroker.Error

/-! # Errors are read back from their messages

A message is the name of a kind, a colon with a blank behind it, and a detail. No kind has a colon
in its name, so the first one ends it, whatever the detail holds. A text that is worded otherwise is
the detail of an internal error. -/

namespace TopicBroker.BrokerError

theorem splitAtColon_append {kind : List Char} (h : ':' ∉ kind) (detail : List Char) :
    splitAtColon (kind ++ ':' :: ' ' :: detail) = some (kind, detail) := by
  induction kind with
  | nil => rfl
  | cons c kind ih =>
      obtain ⟨hc, hkind⟩ := List.ne_and_not_mem_of_not_mem_cons h
      rw [List.cons_append, splitAtColon.eq_3 _ _ fun _ heq _ => hc heq.symm, ih hkind]
      rfl

theorem exists_kind {error : BrokerError} (h : error ≠ unauthorized) :
    ∃ kind detail, error.message = kind ++ ": " ++ detail ∧ ':' ∉ kind.toList ∧
      ofKind? kind detail = some error := by
  cases error with
  | invalidArgument detail => exact ⟨"invalid argument", detail, rfl, by decide, rfl⟩
  | notFound detail => exact ⟨"not found", detail, rfl, by decide, rfl⟩
  | failedPrecondition detail => exact ⟨"failed precondition", detail, rfl, by decide, rfl⟩
  | unauthorized => exact absurd rfl h
  | unimplemented detail => exact ⟨"unimplemented", detail, rfl, by decide, rfl⟩
  | internal detail => exact ⟨"internal", detail, rfl, by decide, rfl⟩
  | deadlineExceeded detail => exact ⟨"deadline exceeded", detail, rfl, by decide, rfl⟩

/-- Every error is read back from its message. -/
@[simp] theorem ofMessage_message (error : BrokerError) : ofMessage error.message = error := by
  by_cases h : error = unauthorized
  · subst h
    rfl
  · obtain ⟨kind, detail, hmessage, hcolon, hkind⟩ := exists_kind h
    have htext : error.message.toList = kind.toList ++ ':' :: ' ' :: detail.toList := by
      rw [hmessage, String.toList_append, String.toList_append, List.append_assoc]
      rfl
    have hworded : error.message ≠ "unauthorised" := by
      intro heq
      have hmem : ':' ∈ "unauthorised".toList := by simp [← heq, htext]
      exact absurd hmem (by decide)
    rw [ofMessage, if_neg hworded, htext, splitAtColon_append hcolon]
    simp [hkind]

theorem message_ne_empty (error : BrokerError) : error.message ≠ "" := by
  by_cases h : error = unauthorized
  · subst h
    decide
  · obtain ⟨kind, detail, hmessage, -⟩ := exists_kind h
    intro hempty
    have hlist := congrArg String.toList hempty
    simp [hmessage] at hlist

/-! ## Texts that are no messages -/

/-- The kinds of errors that carry a detail, as messages name them. -/
def kinds : List String :=
  ["invalid argument", "not found", "failed precondition", "unimplemented", "internal",
    "deadline exceeded"]

/-- The text is worded as messages are: it is that of a connection from a wrong port, or starts with
the name of a kind, a colon and a blank. -/
def Worded (text : String) : Prop :=
  text = "unauthorised" ∨ ∃ kind ∈ kinds, (kind ++ ": ").toList <+: text.toList

instance : DecidablePred Worded := fun _ => inferInstanceAs (Decidable (_ ∨ _))

theorem eq_append_of_splitAtColon {cs kind detail : List Char}
    (h : splitAtColon cs = some (kind, detail)) : cs = kind ++ ':' :: ' ' :: detail := by
  fun_induction splitAtColon cs generalizing kind with
  | case1 => cases h
  | case2 rest =>
      obtain ⟨rfl, rfl⟩ := Prod.mk.inj (Option.some.inj h)
      rfl
  | case3 c rest _ ih =>
      obtain ⟨⟨front, back⟩, hsplit, hcons⟩ := Option.map_eq_some_iff.mp h
      obtain ⟨rfl, rfl⟩ := Prod.mk.inj hcons
      rw [ih hsplit, List.cons_append]

theorem message_of_ofKind? {kind detail : String} {error : BrokerError}
    (h : ofKind? kind detail = some error) : error.message = kind ++ ": " ++ detail := by
  unfold ofKind? at h
  split at h
  case h_7 => cases h
  all_goals
    obtain rfl := Option.some.inj h
    rfl

/-- The kinds are those that are read back. -/
theorem mem_kinds_iff {kind : String} (detail : String) :
    kind ∈ kinds ↔ ∃ error, ofKind? kind detail = some error := by
  simp only [kinds, List.mem_cons, List.not_mem_nil, or_false]
  constructor
  · rintro (rfl | rfl | rfl | rfl | rfl | rfl) <;> exact ⟨_, rfl⟩
  · rintro ⟨error, h⟩
    unfold ofKind? at h
    split at h
    case h_7 => cases h
    all_goals simp

/-- The texts that are worded as messages are the messages. -/
theorem worded_iff {text : String} : Worded text ↔ ∃ error : BrokerError, error.message = text := by
  constructor
  · rintro (rfl | ⟨kind, hkind, detail, htext⟩)
    · exact ⟨unauthorized, rfl⟩
    · obtain ⟨error, herror⟩ := (mem_kinds_iff (String.ofList detail)).mp hkind
      refine ⟨error, String.toList_inj.mp ?_⟩
      rw [message_of_ofKind? herror, String.toList_append, String.toList_ofList, htext]
  · rintro ⟨error, rfl⟩
    by_cases h : error = unauthorized
    · exact .inl (congrArg message h)
    · obtain ⟨kind, detail, hmessage, -, hkind⟩ := exists_kind h
      refine .inr ⟨kind, (mem_kinds_iff detail).mpr ⟨error, hkind⟩, detail.toList, ?_⟩
      exact (congrArg String.toList hmessage).trans String.toList_append |>.symm

theorem ofMessage_of_not_worded {text : String} (h : ¬ Worded text) :
    ofMessage text = internal text := by
  have hplain : text ≠ "unauthorised" := fun heq => h (.inl heq)
  rw [ofMessage, if_neg hplain]
  cases hsplit : splitAtColon text.toList with
  | none => simp
  | some parts =>
      obtain ⟨kind, detail⟩ := parts
      cases hkind : ofKind? (String.ofList kind) (String.ofList detail) with
      | none => simp [hkind]
      | some error =>
          refine absurd (worded_iff.mpr ⟨error, String.toList_inj.mp ?_⟩) h
          rw [message_of_ofKind? hkind, eq_append_of_splitAtColon hsplit]
          simp

/-- Reading a text gives an error with that text for its message, or an internal error with the text
for its detail if nothing is worded so. -/
theorem message_ofMessage (text : String) :
    (ofMessage text).message = if Worded text then text else "internal: " ++ text := by
  by_cases h : Worded text
  · obtain ⟨error, rfl⟩ := worded_iff.mp h
    rw [if_pos h, ofMessage_message]
  · rw [if_neg h, ofMessage_of_not_worded h]
    rfl

/-- Messages tell errors apart and give them back. Every text is read as an error, and the message
of that error is the text itself, or the text as the detail of an internal error. -/
theorem messages_faithful :
    (∀ error, ofMessage error.message = error) ∧
    (∀ text, (ofMessage text).message = if Worded text then text else "internal: " ++ text) ∧
    (∀ error other : BrokerError, error.message = other.message → error = other) ∧
    (∀ text, ofMessage (ofMessage text).message = ofMessage text) := by
  refine ⟨ofMessage_message, message_ofMessage, ?_, fun text => ofMessage_message (ofMessage text)⟩
  intro error other h
  rw [← ofMessage_message error, h, ofMessage_message]

end TopicBroker.BrokerError
