import TopicBroker.Proofs.Registry.Failures
import TopicBroker.Proofs.Registry.Waiting
import TopicBroker.Proofs.Router.Responses
import TopicBroker.Proofs.Router.Route

/-! # Responses that report errors

A response that reports an error tells the client that its request did nothing. A call that
succeeded is never told as an error, so no message is lost on its way to a reader. -/

namespace TopicBroker.Router

open Record Registry Wire

variable {conditions : Conditions} {role : Option Role} {frame : String} {before : Broker}

/-- What a frame does to a broker, by the response to it. -/
structure Harmless (conditions : Conditions) (role : Option Role) (frame : String) (before : Broker)
    (response : Response) (after : Broker) : Prop where
  /-- If a call succeeds its answer is written in the format of the request, which never fails. -/
  succeeds : ∀ format call answer next, Admitted role frame format call →
    (carryOut call).perform conditions before = (.ok answer, next) →
      response.error = "" ∧ response.bodyText = .ok (format.encode (responseTo call answer)) ∧
        after = next
  /-- If an error is reported nothing is different, unless a message could not be logged. -/
  fails : response.error ≠ "" → ∃ start, Engine.Starts conditions before start ∧
    (Unchanged start after ∨ ∃ format error publication,
      Admitted role frame format (.publish publication.publisher publication.draft) ∧
        Unlogged conditions before start after error publication ∧ response = .ofError error)
  /-- Where the request does not start from what it finds, a flush was under way that somebody else
  had sent; it saved the checkpoint and did nothing else. -/
  waits : Reachable before → ∀ start, Engine.Starts conditions before start →
    ∃ live dead mailbox, start =
      { before with
        store := { before.store with live, dead }
        engine := { before.engine with mailbox } }

theorem run_respond {format : ContentType} {call : ServiceCall} {next : Broker}
    {answer : Except BrokerError call.Answer}
    (h : (carryOut call).perform conditions before = (answer, next)) :
    (respond format call <$> Registry.service conditions call).run before =
      (respond format call answer, next) := by
  rw [StateT.run_map]
  exact congrArg (fun result => (respond format call result.1, result.2)) h

/-- An error that is answered has changed nothing, but for a message that could not be logged. -/
theorem harmless_route (conditions : Conditions) (role : Option Role) (frame : String)
    (before : Broker) :
    Harmless conditions role frame before
      ((route (Registry.service conditions) role frame).run before).1
      ((route (Registry.service conditions) role frame).run before).2 := by
  refine ⟨?_, ?_, fun hreachable _ hstarts => exists_of_starts hreachable hstarts⟩
  · intro format call answer next hadmitted hperform
    rw [route_of_plan_eq_ok _ (plan_of_admitted hadmitted), run_respond hperform]
    refine ⟨rfl, ?_, rfl⟩
    rw [respond, bodyText_ok, body_eq]
  · intro hreported
    rcases admitted_or_refused role frame with ⟨format, call, hadmitted⟩ | ⟨error, hrefused⟩
    · rcases hperform : (carryOut call).perform conditions before with ⟨answer, next⟩
      rw [route_of_plan_eq_ok _ (plan_of_admitted hadmitted), run_respond hperform] at hreported ⊢
      cases answer with
      | ok answer => exact absurd rfl hreported
      | error error =>
          obtain ⟨start, hstarts, hunchanged | ⟨publication, rfl, hunlogged⟩⟩ :=
            carryOut_failure hperform
          · exact ⟨start, hstarts, .inl hunchanged⟩
          · exact ⟨start, hstarts, .inr ⟨format, error, publication, hadmitted, hunlogged, rfl⟩⟩
    · rw [route_of_plan_eq_error _ (plan_of_refused hrefused)]
      exact ⟨before, .found, .inl (unchanged_of_visible rfl)⟩

end TopicBroker.Router
