import TopicBroker.Proofs.Json.Inline
import TopicBroker.Proofs.Record.Json
import TopicBroker.Text.Blank

/-! # Records are written as one line -/

namespace TopicBroker.Record

variable {α : Type} [Structured α]

/-- The line of a record has no control characters in it, and so no line breaks. -/
theorem inline_toLine (h : (Structured.shape α).Exact Kind.Exact) (x : α) :
    Json.Inline (toLine x).toList := by
  have hkinds : ∀ f ∈ (Structured.shape α).fields,
      ReadsBack (Kind.readJson .streamed) Kind.writeJson f.kind :=
    fun f hf => Kind.readsBack (h.2 f hf) .streamed
  have hplain : (toJson x).IsPlain := Schema.plain_writeJson hkinds _
  simpa [toLine, toJsonText, Json.render] using Json.inline_write _ hplain

/-- The line of a record starts with a brace, so it is not blank. -/
theorem isAllBlank_toLine (x : α) : Text.isAllBlank (toLine x) = false := by
  have hbrace : '\x7b' ∈ (toLine x).toList := by
    simp [toLine, toJsonText, Json.render, toJson, Schema.writeJson, Json.ofMembers, Json.write]
  have hblank : Text.isBlank '\x7b' = false := by decide
  exact List.all_eq_false.mpr ⟨_, hbrace, by simp [hblank]⟩

end TopicBroker.Record
