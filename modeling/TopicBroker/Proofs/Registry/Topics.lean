import TopicBroker.Proofs.Registry.Effects
import TopicBroker.Proofs.Registry.Waiting

/-! # Topics stay

What a step of a run can do to what is stored of topics and clients. A topic is created once, under
an id of its own, and keeps it. -/

namespace TopicBroker.Registry

open TopicBroker.Action

/-! ## Steps -/

/-- What a step does to what is stored of topics and clients: it carries a call out, it creates a
topic, or it does nothing. -/
inductive Happens (step : Step Move) : Prop where
  | call {call : ServiceCall} {answer : Except BrokerError call.Answer} {start : Broker}
      (reply : step.reply Move.act = ⟨.call call, answer⟩)
      (records : Engine.records start = Engine.records step.before)
      (effect : Effect step.conditions start call answer (step.after Move.act))
  | topic {name : String} (event : step.event = .createTopic name)
      (created : step.after Move.act = { step.before with
        store := (step.before.store.insertTopic name (step.conditions.fresh 0)).2 })
  | kept (quiet : ∀ call, step.event ≠ .call call)
      (records : Engine.records (step.after Move.act) = Engine.records step.before)

theorem happens (step : Step Move) : Happens step := by
  obtain ⟨before, conditions, event⟩ := step
  have kept (hquiet : ∀ call, event ≠ .call call)
      (hkeeps : Keeps Engine.records event.act) : Happens ⟨before, conditions, event⟩ :=
    .kept hquiet (hkeeps conditions before)
  cases event with
  | call call =>
      obtain ⟨start, hstarts, heffect⟩ := carries_carryOut conditions before call
      exact .call rfl hstarts.records_eq heffect
  | command command => exact kept (fun _ h => by cases h) (Engine.keeps_call command)
  | flush late => exact kept (fun _ h => by cases h) (Engine.keeps_flush late)
  | createTopic name =>
      cases hfault : conditions.fault .insertTopic with
      | some error =>
          refine .kept (fun _ h => by cases h) ?_
          simp [Step.after, Move.act, Storage.insertTopic, hfault]
      | none =>
          refine .topic rfl ?_
          simp [Step.after, Move.act, Storage.insertTopic, hfault]
  | kill => exact kept (fun _ h => by cases h) Engine.keeps_kill
  | restart => exact kept (fun _ h => by cases h) Engine.keeps_restart

/-! ## The tables of topics -/

/-- A step leaves the topics as they are, or adds one of a new name. -/
theorem topics_after (step : Step Move) :
    ((step.after Move.act).store.topics = step.before.store.topics ∧
        (step.after Move.act).store.names = step.before.store.names) ∨
      ∃ name, step.event = .createTopic name ∧ step.before.store.topicId? name = none ∧
        (step.after Move.act).store.topics =
            step.before.store.topics.insert name (step.conditions.fresh 0) ∧
          (step.after Move.act).store.names =
            step.before.store.names.insert (step.conditions.fresh 0) name := by
  cases happens step with
  | call reply records effect =>
      have hfixed := fixed_of_effect effect
      refine .inl ⟨?_, ?_⟩
      · exact (congrArg (·.1) hfixed).trans (congrArg (·.1.topics) records)
      · exact (congrArg (·.2.1) hfixed).trans (congrArg (·.1.names) records)
  | @topic name event created =>
      rw [created]
      cases hknown : step.before.store.topics.find? name with
      | some topicId => exact .inl (by simp [Store.insertTopic, hknown])
      | none =>
          refine .inr ⟨name, event, hknown, ?_⟩
          simp [Store.insertTopic, hknown]
  | kept quiet records =>
      exact .inl ⟨congrArg (·.1.topics) records, congrArg (·.1.names) records⟩

/-- A topic that is known stays known, under the same id. -/
theorem topicId?_after {step : Step Move} {name topicId : String}
    (h : step.before.store.topicId? name = some topicId) :
    (step.after Move.act).store.topicId? name = some topicId := by
  rw [Store.topicId?] at h ⊢
  rcases topics_after step with ⟨htopics, -⟩ | ⟨other, -, hunknown, htopics, -⟩
  · rw [htopics, h]
  · have hne : name ≠ other := by
      rintro rfl
      cases h.symm.trans hunknown
    rw [htopics, Table.find?_insert, if_neg hne, h]

end TopicBroker.Registry
