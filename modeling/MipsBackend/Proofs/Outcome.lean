import MipsBackend.Action

/-! # Outcomes of actions

Proofs about actions speak of results and states and leave the events aside.

* `Action.Yields`, `Action.Stops`: an action succeeds or fails and leaves a given state.
* `Action.yields_bind_iff`, `Action.stops_bind_iff`: a sequence succeeds when both parts do, and
  stops at the first part that does. With the other equivalences of this module they take an
  action apart without unfolding `bind`.
* `Action.Advances`: an order that the states before and after an action follow, whether it succeeds or fails.
* `Action.Preserves`: a view of the state that an action never changes, whether it succeeds or fails.
* `ErrorsMeet`: the errors of a computation without a state.
-/

namespace MipsBackend

theorem exceptBind_eq_ok_iff {ε α β : Type} {result : Except ε α} {next : α → Except ε β} {value : β} :
    (result >>= next) = .ok value ↔ ∃ given, result = .ok given ∧ next given = .ok value := by
  cases result <;> simp [bind, Except.bind]

@[simp] theorem exceptMapError_ok {ε ε' α : Type} (reword : ε → ε') (value : α) :
    (Except.ok value : Except ε α).mapError reword = .ok value := rfl

@[simp] theorem exceptMapError_error {ε ε' α : Type} (reword : ε → ε') (error : ε) :
    (Except.error error : Except ε α).mapError reword = .error (reword error) := rfl

/-- Success without a value can be decided although errors need not be. -/
theorem eq_ok_of_isOk {ε : Type} {result : Except ε Unit} (isOk : result.isOk = true) : result = .ok () := by
  cases result with
  | ok value => rfl
  | error error => cases isOk

/-- If there is no result, then because of an error that meets `admits`. -/
def ErrorsMeet {ε α : Type} (admits : ε → Prop) (result : Except ε α) : Prop :=
  ∀ error, result = .error error → admits error

namespace ErrorsMeet

variable {ε α β : Type} {admits : ε → Prop}

theorem ok (value : α) : ErrorsMeet admits (.ok value) := by
  intro error failed
  cases failed

theorem error {cause : ε} (admitted : admits cause) : ErrorsMeet admits (.error cause : Except ε α) := by
  intro other failed
  cases failed
  exact admitted

theorem bind {result : Except ε α} {next : α → Except ε β} (first : ErrorsMeet admits result)
    (second : ∀ value, ErrorsMeet admits (next value)) : ErrorsMeet admits (result >>= next) := by
  cases result with
  | ok value => exact second value
  | error cause => exact error (first cause rfl)

end ErrorsMeet

namespace Action

variable {ε ε' σ τ α β γ : Type}

/-- The action gives `value` and leaves the state `after`. -/
def Yields (action : Action ε σ α) (before : σ) (value : α) (after : σ) : Prop :=
  (action before).result = .ok value ∧ (action before).state = after

/-- The action stops with `error` and leaves the state `after`. -/
def Stops (action : Action ε σ α) (before : σ) (error : ε) (after : σ) : Prop :=
  (action before).result = .error error ∧ (action before).state = after

theorem yields_or_stops (action : Action ε σ α) (before : σ) :
    (∃ value after, action.Yields before value after) ∨
      ∃ error after, action.Stops before error after := by
  cases result : (action before).result with
  | ok value => exact .inl ⟨value, _, result, rfl⟩
  | error error => exact .inr ⟨error, _, result, rfl⟩

theorem Yields.not_stops {action : Action ε σ α} {before after last : σ} {value : α} {error : ε}
    (yields : action.Yields before value after) : ¬ action.Stops before error last := by
  intro stops
  rw [Stops, yields.1] at stops
  cases stops.1

/-! ## Single steps -/

@[simp] theorem yields_pure_iff {value given : α} {before after : σ} :
    (pure given : Action ε σ α).Yields before value after ↔ given = value ∧ before = after := by
  simp [Yields]

@[simp] theorem not_stops_pure {given : α} {before after : σ} {error : ε} :
    ¬ (pure given : Action ε σ α).Stops before error after := by
  simp [Stops]

@[simp] theorem not_yields_fail {before after : σ} {value : α} {error : ε} :
    ¬ (fail error : Action ε σ α).Yields before value after := by
  simp [Yields]

@[simp] theorem stops_fail_iff {before after : σ} {error given : ε} :
    (fail given : Action ε σ α).Stops before error after ↔ given = error ∧ before = after := by
  simp [Stops]

@[simp] theorem yields_read_iff {before value after : σ} :
    (read : Action ε σ σ).Yields before value after ↔ before = value ∧ before = after := by
  simp [Yields]

@[simp] theorem not_stops_read {before after : σ} {error : ε} :
    ¬ (read : Action ε σ σ).Stops before error after := by
  simp [Stops]

@[simp] theorem yields_update_iff {f : σ → σ} {before after : σ} {value : Unit} :
    (update f : Action ε σ Unit).Yields before value after ↔ f before = after := by
  simp [Yields]

@[simp] theorem not_stops_update {f : σ → σ} {before after : σ} {error : ε} :
    ¬ (update f : Action ε σ Unit).Stops before error after := by
  simp [Stops]

@[simp] theorem yields_report_iff {event : Event} {before after : σ} {value : Unit} :
    (report event : Action ε σ Unit).Yields before value after ↔ before = after := by
  simp [Yields]

@[simp] theorem not_stops_report {event : Event} {before after : σ} {error : ε} :
    ¬ (report event : Action ε σ Unit).Stops before error after := by
  simp [Stops]

@[simp] theorem yields_ofExcept_iff {result : Except ε α} {before after : σ} {value : α} :
    (ofExcept result : Action ε σ α).Yields before value after ↔ result = .ok value ∧ before = after := by
  rfl

@[simp] theorem stops_ofExcept_iff {result : Except ε α} {before after : σ} {error : ε} :
    (ofExcept result : Action ε σ α).Stops before error after ↔ result = .error error ∧ before = after := by
  rfl

/-! ## Sequences and wrappers -/

@[simp] theorem yields_bind_iff {action : Action ε σ α} {next : α → Action ε σ β}
    {before after : σ} {value : β} :
    (action >>= next).Yields before value after ↔
      ∃ given middle, action.Yields before given middle ∧ (next given).Yields middle value after := by
  cases result : (action before).result with
  | ok given => simp [Yields, bind_eq_of_ok result, result, and_assoc]
  | error error => simp [Yields, bind_eq_of_error result, result]

@[simp] theorem stops_bind_iff {action : Action ε σ α} {next : α → Action ε σ β}
    {before after : σ} {error : ε} :
    (action >>= next).Stops before error after ↔
      action.Stops before error after ∨
        ∃ given middle, action.Yields before given middle ∧ (next given).Stops middle error after := by
  cases result : (action before).result with
  | ok given => simp [Stops, Yields, bind_eq_of_ok result, result, and_assoc]
  | error error => simp [Stops, Yields, bind_eq_of_error result, result]

@[simp] theorem read_bind_apply (next : σ → Action ε σ α) (state : σ) : (read >>= next) state = next state state := by
  simp [Bind.bind, Action.bind]

/-- What follows a success is all that is left of a sequence. -/
theorem Yields.bind_eq {action : Action ε σ α} {next : α → Action ε σ β} {before after : σ} {value : α}
    (yields : action.Yields before value after) :
    ((action >>= next) before).result = (next value after).result ∧
      ((action >>= next) before).state = (next value after).state := by
  obtain ⟨ok, rfl⟩ := yields
  rw [bind_eq_of_ok ok]
  exact ⟨rfl, rfl⟩

theorem Stops.bind_eq {action : Action ε σ α} {next : α → Action ε σ β} {before after : σ} {error : ε}
    (stops : action.Stops before error after) :
    ((action >>= next) before).result = .error error ∧ ((action >>= next) before).state = after := by
  obtain ⟨failed, rfl⟩ := stops
  rw [bind_eq_of_error failed]
  exact ⟨rfl, rfl⟩

@[simp] theorem yields_map_iff {f : α → β} {action : Action ε σ α} {before after : σ} {value : β} :
    (f <$> action).Yields before value after ↔ ∃ given, action.Yields before given after ∧ f given = value := by
  rw [map_eq_pure_bind]
  simp only [yields_bind_iff, yields_pure_iff]
  constructor
  · rintro ⟨given, middle, yields, rfl, rfl⟩
    exact ⟨given, yields, rfl⟩
  · rintro ⟨given, yields, rfl⟩
    exact ⟨given, after, yields, rfl, rfl⟩

@[simp] theorem stops_map_iff {f : α → β} {action : Action ε σ α} {before after : σ} {error : ε} :
    (f <$> action).Stops before error after ↔ action.Stops before error after := by
  rw [map_eq_pure_bind]
  simp only [stops_bind_iff, not_stops_pure, and_false, exists_false, or_false]

@[simp] theorem yields_focus_iff {part : τ → σ} {replace : τ → σ → τ} {action : Action ε σ α}
    {before after : τ} {value : α} :
    (focus part replace action).Yields before value after ↔
      ∃ inner, action.Yields (part before) value inner ∧ replace before inner = after := by
  simp [focus, Yields, and_assoc]

@[simp] theorem stops_focus_iff {part : τ → σ} {replace : τ → σ → τ} {action : Action ε σ α}
    {before after : τ} {error : ε} :
    (focus part replace action).Stops before error after ↔
      ∃ inner, action.Stops (part before) error inner ∧ replace before inner = after := by
  simp [focus, Stops, and_assoc]

@[simp] theorem yields_mapError_iff {reword : ε → ε'} {action : Action ε σ α} {before after : σ}
    {value : α} : (action.mapError reword).Yields before value after ↔ action.Yields before value after := by
  cases result : (action before).result <;> simp [mapError, Yields, result]

@[simp] theorem stops_mapError_iff {reword : ε → ε'} {action : Action ε σ α} {before after : σ}
    {error : ε'} : (action.mapError reword).Stops before error after ↔
      ∃ cause, action.Stops before cause after ∧ reword cause = error := by
  cases result : (action before).result with
  | ok value => simp [mapError, Stops, result]
  | error cause =>
    simp only [mapError, Stops, result, exceptMapError_error, Except.error.injEq, and_assoc, exists_eq_left']
    exact and_comm

@[simp] theorem yields_reportingFailure_iff {describe : σ → List Event} {action : Action ε σ α}
    {before after : σ} {value : α} :
    (action.reportingFailure describe).Yields before value after ↔ action.Yields before value after := by
  cases result : (action before).result <;> simp [reportingFailure, Yields, result]

@[simp] theorem stops_reportingFailure_iff {describe : σ → List Event} {action : Action ε σ α}
    {before after : σ} {error : ε} :
    (action.reportingFailure describe).Stops before error after ↔ action.Stops before error after := by
  cases result : (action before).result <;> simp [reportingFailure, Stops, result]

@[simp] theorem result_map (f : α → β) (action : Action ε σ α) (before : σ) :
    ((f <$> action) before).result = (action before).result.map f := by
  cases result : (action before).result <;> simp [Functor.map, Action.bind, Action.pure, Except.map, result]

@[simp] theorem state_map (f : α → β) (action : Action ε σ α) (before : σ) :
    ((f <$> action) before).state = (action before).state := by
  cases result : (action before).result <;> simp [Functor.map, Action.bind, Action.pure, result]

@[simp] theorem events_map (f : α → β) (action : Action ε σ α) (before : σ) :
    ((f <$> action) before).events = (action before).events := by
  cases result : (action before).result <;> simp [Functor.map, Action.bind, Action.pure, result]

@[simp] theorem result_reportingFailure (describe : σ → List Event) (action : Action ε σ α) (before : σ) :
    (action.reportingFailure describe before).result = (action before).result := by
  cases result : (action before).result <;> simp [reportingFailure, result]

@[simp] theorem state_reportingFailure (describe : σ → List Event) (action : Action ε σ α) (before : σ) :
    (action.reportingFailure describe before).state = (action before).state := by
  cases result : (action before).result <;> simp [reportingFailure, result]

/-! ## States that an action leads to -/

/-- The action leads from every state to a later one, even when it fails. -/
def Advances (Later : σ → σ → Prop) (action : Action ε σ α) : Prop :=
  ∀ before, Later before (action before).state

namespace Advances

variable {Later : σ → σ → Prop}

theorem bind {action : Action ε σ α} {next : α → Action ε σ β}
    (trans : ∀ {first second third}, Later first second → Later second third → Later first third)
    (first : action.Advances Later) (second : ∀ value, (next value).Advances Later) :
    (action >>= next).Advances Later := by
  intro before
  cases result : (action before).result with
  | ok given =>
    rw [bind_eq_of_ok result]
    exact trans (first before) (second given _)
  | error error =>
    rw [bind_eq_of_error result]
    exact first before

theorem map {f : α → β} {action : Action ε σ α} (advances : action.Advances Later) :
    (f <$> action).Advances Later := by
  intro before
  rw [state_map]
  exact advances before

theorem reportingFailure {describe : σ → List Event} {action : Action ε σ α} (advances : action.Advances Later) :
    (action.reportingFailure describe).Advances Later := by
  intro before
  rw [state_reportingFailure]
  exact advances before

end Advances

/-! ## Views that stay as they are -/

/-- The action never changes what `view` shows of the state, even when it fails. -/
def Preserves (view : σ → γ) (action : Action ε σ α) : Prop :=
  ∀ before, view (action before).state = view before

end Action

end MipsBackend
