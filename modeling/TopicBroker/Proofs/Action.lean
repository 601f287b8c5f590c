import TopicBroker.Broker

/-! # Laws of actions

What performing an action answers and leaves behind, read off the parts that it is made of. -/

namespace TopicBroker

variable {α β : Type} {conditions : Conditions} {broker next : Broker}

namespace Action

@[simp] theorem perform_throw (error : BrokerError) :
    (throw error : Action α).perform conditions broker = (.error error, broker) := rfl

@[simp] theorem perform_pure (a : α) :
    (pure a : Action α).perform conditions broker = (.ok a, broker) := rfl

@[simp] theorem perform_read :
    (read : Action Conditions).perform conditions broker = (.ok conditions, broker) := rfl

@[simp] theorem perform_get :
    (get : Action Broker).perform conditions broker = (.ok broker, broker) := rfl

@[simp] theorem perform_modify (step : Broker → Broker) :
    (modify step : Action Unit).perform conditions broker = (.ok (), step broker) := rfl

@[simp] theorem perform_liftExcept (x : Except BrokerError α) :
    (liftM x : Action α).perform conditions broker = (x, broker) := rfl

/-- The part behind is performed only if the part in front succeeds. -/
@[simp] theorem perform_bind (x : Action α) (f : α → Action β) :
    (x >>= f).perform conditions broker =
      match x.perform conditions broker with
      | (.ok a, next) => (f a).perform conditions next
      | (.error error, next) => (.error error, next) := by
  simp only [perform]
  change (ExceptT.bindCont (fun a => f a conditions) (x conditions broker).1 : StateM Broker _)
    (x conditions broker).2 = _
  rcases x conditions broker with ⟨_ | a, next⟩ <;> rfl

@[simp] theorem perform_map (f : α → β) (x : Action α) :
    (f <$> x).perform conditions broker =
      match x.perform conditions broker with
      | (.ok a, next) => (.ok (f a), next)
      | (.error error, next) => (.error error, next) := by
  rw [← bind_pure_comp, perform_bind]
  rfl

/-- The handler goes on from what the part that failed left behind. -/
@[simp] theorem perform_tryCatch (x : Action α) (handler : BrokerError → Action α) :
    (tryCatch x handler).perform conditions broker =
      match x.perform conditions broker with
      | (.ok a, next) => (.ok a, next)
      | (.error error, next) => (handler error).perform conditions next := by
  simp only [perform]
  change ExceptT.tryCatch (x conditions) (fun error => handler error conditions) broker = _
  simp only [ExceptT.tryCatch, ExceptT.mk, bind, StateT.bind]
  rcases x conditions broker with ⟨_ | a, next⟩ <;> rfl

end Action

@[simp] theorem ok_bind {ε : Type} (a : α) (f : α → Except ε β) : (Except.ok a >>= f) = f a := rfl

@[simp] theorem error_bind {ε : Type} (error : ε) (f : α → Except ε β) :
    (Except.error error >>= f) = .error error := rfl

/-- A computation that succeeds has succeeded in its first part. -/
theorem exists_of_bind_eq_ok {ε : Type} {x : Except ε α} {f : α → Except ε β} {b : β}
    (h : x >>= f = .ok b) : ∃ a, x = .ok a ∧ f a = .ok b := by
  cases x with
  | error error => cases h
  | ok a => exact ⟨a, rfl, h⟩

theorem exists_of_map_eq_ok {ε : Type} {x : Except ε α} {f : α → β} {b : β}
    (h : x.map f = .ok b) : ∃ a, x = .ok a ∧ f a = b := by
  cases x with
  | error error => cases h
  | ok a => exact ⟨a, rfl, Except.ok.inj h⟩

theorem eq_ok_of_mapError {ε ε' : Type} {x : Except ε α} {f : ε → ε'} {a : α}
    (h : x.mapError f = .ok a) : x = .ok a := by
  cases x with
  | error error => cases h
  | ok b => rw [Except.ok.inj h]

theorem mapError_eq_ok_iff {ε ε' : Type} {x : Except ε α} {f : ε → ε'} {a : α} :
    x.mapError f = .ok a ↔ x = .ok a :=
  ⟨eq_ok_of_mapError, fun h => h ▸ rfl⟩

theorem exists_of_mapError_eq_error {ε ε' : Type} {x : Except ε α} {f : ε → ε'} {error : ε'}
    (h : x.mapError f = .error error) : ∃ cause, x = .error cause ∧ f cause = error := by
  cases x with
  | error cause => exact ⟨cause, rfl, Except.error.inj h⟩
  | ok a => cases h

namespace Storage

/-- An operation that fails does nothing. -/
@[simp] theorem perform_operate (operation : StorageOperation)
    (step : Store → Except BrokerError α × Store) :
    (operate operation step).perform conditions broker =
      match conditions.fault operation with
      | some error => (.error error, broker)
      | none => ((step broker.store).1, { broker with store := (step broker.store).2 }) := by
  simp only [operate, Action.perform]
  cases conditions.fault operation <;> rfl

@[simp] theorem perform_look (operation : StorageOperation) (view : Store → α) :
    (look operation view).perform conditions broker =
      match conditions.fault operation with
      | some error => (.error error, broker)
      | none => (.ok (view broker.store), broker) := by
  simp [look]

@[simp] theorem perform_change (operation : StorageOperation) (step : Store → Store) :
    (change operation step).perform conditions broker =
      match conditions.fault operation with
      | some error => (.error error, broker)
      | none => (.ok (), { broker with store := step broker.store }) := by
  simp [change]

end Storage

/-! ## What an action leaves alone -/

namespace Action

variable {γ : Type} {view : Broker → γ}

/-- What is seen of the broker is the same behind the action, whether it fails or not. -/
def Keeps (view : Broker → γ) (action : Action α) : Prop :=
  ∀ conditions broker, view (action.perform conditions broker).2 = view broker

theorem keeps_pure (a : α) : Keeps view (pure a : Action α) :=
  fun _ _ => rfl

theorem keeps_throw (error : BrokerError) : Keeps view (throw error : Action α) :=
  fun _ _ => rfl

theorem keeps_bind {x : Action α} {f : α → Action β} (hx : Keeps view x)
    (hf : ∀ a, Keeps view (f a)) : Keeps view (x >>= f) := by
  intro conditions broker
  have hfirst := hx conditions broker
  rw [perform_bind]
  rcases hperform : x.perform conditions broker with ⟨_ | a, next⟩ <;> rw [hperform] at hfirst
  · exact hfirst
  · exact (hf a conditions next).trans hfirst

theorem keeps_look (operation : StorageOperation) (look : Store → α) :
    Keeps view (Storage.look operation look) := by
  intro conditions broker
  rw [Storage.perform_look]
  cases conditions.fault operation <;> rfl

theorem keeps_change (operation : StorageOperation) {step : Store → Store}
    (h : ∀ broker, view { broker with store := step broker.store } = view broker) :
    Keeps view (Storage.change operation step) := by
  intro conditions broker
  rw [Storage.perform_change]
  cases conditions.fault operation
  · exact h broker
  · rfl

/-! ## What an action that fails leaves alone -/

/-- The action does all or nothing as far as is seen: what is seen of the broker is the same behind
it if it fails. -/
def AllOrNothing (view : Broker → γ) (action : Action α) : Prop :=
  ∀ conditions broker error next,
    action.perform conditions broker = (.error error, next) → view next = view broker

theorem Keeps.allOrNothing {action : Action α} (h : Keeps view action) :
    AllOrNothing view action := by
  intro conditions broker error next hperform
  have hkept := h conditions broker
  rw [hperform] at hkept
  exact hkept

/-- Only the last part of an action may change what is seen. -/
theorem allOrNothing_bind {x : Action α} {f : α → Action β} (hx : Keeps view x)
    (hf : ∀ a, AllOrNothing view (f a)) : AllOrNothing view (x >>= f) := by
  intro conditions broker error last hperform
  have hfirst := hx conditions broker
  rw [perform_bind] at hperform
  rcases hx' : x.perform conditions broker with ⟨_ | a, next⟩ <;> rw [hx'] at hfirst hperform
  · cases hperform
    exact hfirst
  · exact (hf a conditions next error last hperform).trans hfirst

theorem allOrNothing_change (operation : StorageOperation) (step : Store → Store) :
    AllOrNothing view (Storage.change operation step) := by
  intro conditions broker error next hperform
  rw [Storage.perform_change] at hperform
  cases hfault : conditions.fault operation <;> rw [hfault] at hperform <;> cases hperform
  rfl

/-! ## What an action preserves -/

variable {P : Broker → Prop}

/-- What holds of the broker in front of the action holds behind it, whether it fails or not. -/
def Preserves (P : Broker → Prop) (action : Action α) : Prop :=
  ∀ conditions broker, P broker → P (action.perform conditions broker).2

theorem preserves_throw (error : BrokerError) : Preserves P (throw error : Action α) :=
  fun _ _ h => h

theorem preserves_bind {x : Action α} {f : α → Action β} (hx : Preserves P x)
    (hf : ∀ a, Preserves P (f a)) : Preserves P (x >>= f) := by
  intro conditions broker hbroker
  have hfirst := hx conditions broker hbroker
  rw [perform_bind]
  rcases hperform : x.perform conditions broker with ⟨_ | a, next⟩ <;> rw [hperform] at hfirst
  · exact hfirst
  · exact hf a conditions next hfirst

end Action

end TopicBroker
