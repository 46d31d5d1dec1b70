import MipsBackend.Trace

/-! # Actions

An action updates a state, reports events and may stop with an error. Changes and events made
before the error are kept, so what is left after a failed action can be used further.

* `Action.bind_eq_of_ok`, `Action.bind_eq_of_error`: what two actions in sequence leave behind.
-/

namespace MipsBackend

/-- What is left after an action: its result, the state, and the events reported on the way. -/
structure Outcome (ε σ α : Type) where
  result : Except ε α
  state : σ
  events : List Event

/-- A computation on a state that reports events and may stop with an error. -/
def Action (ε σ α : Type) : Type := σ → Outcome ε σ α

namespace Action

variable {ε ε' σ τ α β : Type}

/-- Gives a value and changes nothing. -/
protected def pure (value : α) : Action ε σ α := fun state => ⟨.ok value, state, []⟩

/-- Runs an action, then the one chosen by its value. -/
protected def bind (action : Action ε σ α) (next : α → Action ε σ β) : Action ε σ β := fun state =>
  let first := action state
  match first.result with
  | .error error => ⟨.error error, first.state, first.events⟩
  | .ok value =>
    let second := next value first.state
    ⟨second.result, second.state, first.events ++ second.events⟩

instance : Monad (Action ε σ) where
  pure := Action.pure
  bind := Action.bind

def fail (error : ε) : Action ε σ α := fun state => ⟨.error error, state, []⟩

def read : Action ε σ σ := fun state => ⟨.ok state, state, []⟩

def update (f : σ → σ) : Action ε σ Unit := fun state => ⟨.ok (), f state, []⟩

def report (event : Event) : Action ε σ Unit := fun state => ⟨.ok (), state, [event]⟩

/-- Gives a value or stops, as computed already. -/
def ofExcept (result : Except ε α) : Action ε σ α := fun state => ⟨result, state, []⟩

def focus (part : τ → σ) (replace : τ → σ → τ) (action : Action ε σ α) : Action ε τ α := fun whole =>
  let outcome := action (part whole)
  ⟨outcome.result, replace whole outcome.state, outcome.events⟩

def mapError (reword : ε → ε') (action : Action ε σ α) : Action ε' σ α := fun state =>
  let outcome := action state
  ⟨outcome.result.mapError reword, outcome.state, outcome.events⟩

/-- Reports on the state that a failed action leaves behind. -/
def reportingFailure (describe : σ → List Event) (action : Action ε σ α) : Action ε σ α := fun state =>
  let outcome := action state
  match outcome.result with
  | .ok _ => outcome
  | .error _ => { outcome with events := outcome.events ++ describe outcome.state }

@[simp] theorem pure_apply (value : α) (state : σ) :
    (pure value : Action ε σ α) state = ⟨.ok value, state, []⟩ := rfl

@[simp] theorem fail_apply (error : ε) (state : σ) :
    (fail error : Action ε σ α) state = ⟨.error error, state, []⟩ := rfl

@[simp] theorem read_apply (state : σ) : (read : Action ε σ σ) state = ⟨.ok state, state, []⟩ := rfl

@[simp] theorem update_apply (f : σ → σ) (state : σ) :
    (update f : Action ε σ Unit) state = ⟨.ok (), f state, []⟩ := rfl

@[simp] theorem report_apply (event : Event) (state : σ) :
    (report event : Action ε σ Unit) state = ⟨.ok (), state, [event]⟩ := rfl

theorem bind_eq_of_ok {action : Action ε σ α} {next : α → Action ε σ β} {state : σ} {value : α}
    (h : (action state).result = .ok value) :
    (action >>= next) state =
      { next value (action state).state with
        events := (action state).events ++ (next value (action state).state).events } := by
  simp [Bind.bind, Action.bind, h]

theorem bind_eq_of_error {action : Action ε σ α} {next : α → Action ε σ β} {state : σ} {error : ε}
    (h : (action state).result = .error error) :
    (action >>= next) state = ⟨.error error, (action state).state, (action state).events⟩ := by
  simp [Bind.bind, Action.bind, h]

instance : LawfulMonad (Action ε σ) := LawfulMonad.mk' _
  (fun action => by
    funext state
    simp only [Functor.map, Action.bind, Function.comp, Action.pure]
    split <;> rename_i h <;> simp [← h])
  (fun value next => by
    funext state
    simp [Bind.bind, Action.bind, Pure.pure, Action.pure])
  (fun action next last => by
    funext state
    simp only [Bind.bind, Action.bind]
    cases (action state).result with
    | error error => rfl
    | ok value =>
      simp only
      split <;> simp)

end Action

end MipsBackend
