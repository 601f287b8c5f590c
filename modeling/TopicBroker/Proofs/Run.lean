import TopicBroker.Broker

/-! # Runs

A run is a sequence of events, each of which acts on the state that the one before it left. The
events of a run and the conditions that they meet are given by a schedule; what happens then is
determined. -/

namespace TopicBroker

/-- Storage works. -/
def Conditions.Faultless (conditions : Conditions) : Prop :=
  ∀ operation, conditions.fault operation = none

/-- Storage works at the start of 1970, and ids start with the given text. -/
def Conditions.calm (start : String) : Conditions where
  now := ⟨0, 0, by decide, by decide⟩
  fault := fun _ => none
  fresh := fun i => start ++ String.ofList (Text.digits i)

/-- An event with the conditions that it meets and the state that it finds. -/
structure Step (ε : Type) where
  before : Broker
  conditions : Conditions
  event : ε

/-- Events in the order in which they happen, each with the conditions that it meets. -/
abbrev Schedule (ε : Type) := List (Conditions × ε)

section

variable {ε : Type} {Answer : ε → Type} (act : (event : ε) → Action (Answer event))

/-- The answer of a step, with its event. -/
def Step.reply (step : Step ε) : (event : ε) × Except BrokerError (Answer event) :=
  ⟨step.event, ((act step.event).perform step.conditions step.before).1⟩

/-- The state that a step leaves. -/
def Step.after (step : Step ε) : Broker :=
  ((act step.event).perform step.conditions step.before).2

namespace Schedule

/-- The steps of a run from a state on. -/
def steps : Schedule ε → Broker → List (Step ε)
  | [], _ => []
  | (conditions, event) :: schedule, broker =>
    ⟨broker, conditions, event⟩ :: steps schedule (Step.after act ⟨broker, conditions, event⟩)

/-- The state that a run ends in. -/
def final : Schedule ε → Broker → Broker
  | [], broker => broker
  | (conditions, event) :: schedule, broker =>
    final schedule (Step.after act ⟨broker, conditions, event⟩)

theorem steps_append (first second : Schedule ε) (broker : Broker) :
    steps act (first ++ second) broker =
      steps act first broker ++ steps act second (final act first broker) := by
  induction first generalizing broker with
  | nil => rfl
  | cons entry first ih => simp [steps, final, ih]

theorem final_append (first second : Schedule ε) (broker : Broker) :
    final act (first ++ second) broker = final act second (final act first broker) := by
  induction first generalizing broker with
  | nil => rfl
  | cons entry first ih => simp [final, ih]

/-- Every step of a run is one of the events of its schedule, under the conditions given there. -/
theorem entry_of_mem_steps {schedule : Schedule ε} {broker : Broker} {step : Step ε}
    (h : step ∈ schedule.steps act broker) : (step.conditions, step.event) ∈ schedule := by
  induction schedule generalizing broker with
  | nil => cases h
  | cons entry schedule ih =>
      rcases List.mem_cons.mp h with rfl | h
      · exact List.mem_cons_self
      · exact List.mem_cons_of_mem _ (ih h)

theorem map_entry_steps (schedule : Schedule ε) (broker : Broker) :
    ((schedule.steps act broker).map fun step => (step.conditions, step.event)) = schedule := by
  induction schedule generalizing broker with
  | nil => rfl
  | cons entry schedule ih => simp [steps, ih]

/-- The steps up to one of a run are a run, which ends where that step leaves off. -/
theorem exists_front_of_steps_eq {schedule : Schedule ε} {broker : Broker}
    {earlier later : List (Step ε)} {step : Step ε}
    (h : schedule.steps act broker = earlier ++ step :: later) :
    ∃ front back, schedule = front ++ back ∧ front.steps act broker = earlier ++ [step] ∧
      front.final act broker = step.after act := by
  induction earlier generalizing schedule broker with
  | nil =>
      cases schedule with
      | nil => cases h
      | cons entry schedule =>
          obtain ⟨rfl, -⟩ := List.cons.inj h
          exact ⟨[entry], schedule, rfl, rfl, rfl⟩
  | cons first earlier ih =>
      cases schedule with
      | nil => cases h
      | cons entry schedule =>
          obtain ⟨rfl, htail⟩ := List.cons.inj h
          obtain ⟨front, back, rfl, hsteps, hfinal⟩ := ih htail
          exact ⟨entry :: front, back, rfl, by rw [steps, hsteps]; rfl, hfinal⟩

/-- A run whose steps fall into two parts falls into two runs. -/
theorem exists_split_of_steps_eq {schedule : Schedule ε} {broker : Broker}
    {earlier later : List (Step ε)} (h : schedule.steps act broker = earlier ++ later) :
    ∃ front back, schedule = front ++ back ∧ front.steps act broker = earlier ∧
      back.steps act (front.final act broker) = later := by
  induction earlier generalizing schedule broker with
  | nil => exact ⟨[], schedule, rfl, rfl, h⟩
  | cons first earlier ih =>
      cases schedule with
      | nil => cases h
      | cons entry schedule =>
          obtain ⟨rfl, htail⟩ := List.cons.inj h
          obtain ⟨front, back, rfl, hfront, hback⟩ := ih htail
          exact ⟨entry :: front, back, rfl, by rw [steps, hfront], hback⟩

/-- The steps in front of one of a run are a run, which ends in what that step finds. -/
theorem exists_run_to_of_steps_eq {schedule : Schedule ε} {broker : Broker}
    {earlier later : List (Step ε)} {step : Step ε}
    (h : schedule.steps act broker = earlier ++ step :: later) :
    ∃ front back, schedule = front ++ back ∧ front.steps act broker = earlier ∧
      front.final act broker = step.before := by
  obtain ⟨front, back, rfl, hfront, hback⟩ := exists_split_of_steps_eq act h
  refine ⟨front, back, rfl, hfront, ?_⟩
  cases back with
  | nil => cases hback
  | cons entry back => exact congrArg Step.before (List.cons.inj hback).1

/-- The steps between two steps of a run are a run, from what the first leaves to what the second
finds. -/
theorem exists_between_of_steps_eq {schedule : Schedule ε} {broker : Broker}
    {earlier between later : List (Step ε)} {first second : Step ε}
    (h : schedule.steps act broker = earlier ++ first :: between ++ second :: later) :
    ∃ middle : Schedule ε, middle.steps act (first.after act) = between ∧
      middle.final act (first.after act) = second.before := by
  obtain ⟨front, back, rfl, hfront, hfinal⟩ := exists_run_to_of_steps_eq act h
  obtain ⟨opening, rest, rfl, -, hrest⟩ := exists_split_of_steps_eq act hfront
  rw [final_append] at hfinal
  cases rest with
  | nil => cases hrest
  | cons entry middle =>
      obtain ⟨rfl, hmiddle⟩ := List.cons.inj hrest
      exact ⟨middle, hmiddle, hfinal⟩

/-- What holds at the start, and is kept by every step that is made, holds at the end. -/
theorem final_of_steps {P : Broker → Prop} {schedule : Schedule ε} {broker : Broker}
    (h : ∀ step ∈ schedule.steps act broker, P step.before → P (step.after act))
    (hstart : P broker) : P (schedule.final act broker) := by
  induction schedule generalizing broker with
  | nil => exact hstart
  | cons entry schedule ih =>
      obtain ⟨hfirst, hrest⟩ := List.forall_mem_cons.mp h
      exact ih hrest (hfirst hstart)

/-- What holds at the start, and is kept by every step that may come next, holds at the end. -/
theorem run_induction {start : Broker} {motive : List (Step ε) → Broker → Prop}
    (nil : motive [] start)
    (snoc : ∀ steps step, motive steps step.before → motive (steps ++ [step]) (step.after act))
    (schedule : Schedule ε) : motive (schedule.steps act start) (schedule.final act start) := by
  suffices h : ∀ steps broker, motive steps broker →
      motive (steps ++ schedule.steps act broker) (schedule.final act broker) from
    h [] start nil
  induction schedule with
  | nil =>
      intro steps broker h
      simpa [Schedule.steps, final] using h
  | cons entry schedule ih =>
      intro steps broker h
      have hnext := snoc steps ⟨broker, entry.1, entry.2⟩ h
      simpa [Schedule.steps, final] using ih _ _ hnext

end Schedule

end

/-! ## Since -/

/-- Some element has the first property, and none behind it has the second. -/
def Since {σ : Type} (p q : σ → Prop) (elements : List σ) : Prop :=
  ∃ earlier element later, elements = earlier ++ element :: later ∧ p element ∧
    ∀ other ∈ later, ¬ q other

section

variable {σ : Type} {p q : σ → Prop}

theorem not_since_nil : ¬ Since p q [] := by
  rintro ⟨earlier, element, later, h, -⟩
  simp at h

theorem since_append_singleton {elements : List σ} {last : σ} :
    Since p q (elements ++ [last]) ↔ p last ∨ Since p q elements ∧ ¬ q last := by
  constructor
  · rintro ⟨earlier, element, later, h, hp, hq⟩
    rcases List.eq_nil_or_concat later with rfl | ⟨later, other, rfl⟩
    · obtain ⟨-, hlast⟩ := List.append_inj' h rfl
      obtain rfl := List.singleton_inj.mp hlast
      exact .inl hp
    · rw [List.concat_eq_append, ← List.cons_append, ← List.append_assoc] at h
      obtain ⟨hfront, hlast⟩ := List.append_inj' h rfl
      obtain rfl := List.singleton_inj.mp hlast
      have hother := List.forall_mem_append.mp (List.concat_eq_append ▸ hq)
      exact .inr ⟨⟨earlier, element, later, hfront, hp, hother.1⟩, hother.2 last (by simp)⟩
  · rintro (hp | ⟨⟨earlier, element, later, rfl, hp, hq⟩, hlast⟩)
    · exact ⟨elements, last, [], rfl, hp, nofun⟩
    · refine ⟨earlier, element, later ++ [last], by simp, hp, ?_⟩
      exact List.forall_mem_append.mpr ⟨hq, by simpa using hlast⟩

end

end TopicBroker
