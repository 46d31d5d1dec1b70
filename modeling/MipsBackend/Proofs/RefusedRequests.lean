import MipsBackend.Proofs.ReplayEffects

/-! # Refused requests

A request is refused either because of a name in it or by code generation. The names are looked up first, all of
them, and bindings change last, so neither refusal leaves a request half done.

* `ReplayError.concernsNames`: the errors that are about a name. Looking names up has no others.
* `Replay.apply_stops`, `Replay.applyAll_stops`: how a request stops, and how a run of requests does.
* `Replay.refused_request_binds_nothing`: what is left of a replay when a request is refused.
-/

namespace MipsBackend

/-! ## Names that do not resolve -/

/-- Whether a request was refused for a name: nothing bears it, something bears it already, or a slot holds the
register that it denotes. -/
def ReplayError.concernsNames : ReplayError → Bool
  | unknownRegister _ _ | unknownLabel _ _ | unknownOperator _ _ | slotInUse _ _ | registerHeld _ _ _ => true
  | emission _ _ _ | finish _ => false

theorem ReplayError.exitCode_of_concernsNames {error : ReplayError} (concerns : error.concernsNames = true) :
    error.exitCode = 1 := by
  cases error with
  | emission _ _ _ | finish _ => cases concerns
  | _ => rfl

namespace Names

/-- The look-up gives a result or fails because of a name. -/
abbrev LooksUp {α : Type} (lookup : Except ReplayError α) : Prop :=
  ErrorsMeet (fun error => error.concernsNames = true) lookup

variable (names : Names) (index : Nat)

theorem looksUp_register (name : String) : LooksUp (names.register index name) := by
  intro error failed
  simp only [register] at failed
  split at failed
  next => cases failed
  next => cases failed; rfl

theorem looksUp_label (name : String) : LooksUp (names.label index name) := by
  intro error failed
  simp only [label] at failed
  split at failed
  next => cases failed
  next => cases failed; rfl

theorem looksUp_operator (name : String) : LooksUp (operator index name) := by
  intro error failed
  simp only [operator] at failed
  split at failed
  next => cases failed
  next => cases failed; rfl

theorem looksUp_freeTask (name : String) : LooksUp (names.freeTask index name) := by
  apply (names.looksUp_register index name).bind
  intro reg error failed
  split at failed
  next => cases failed; rfl
  next => cases failed

theorem looksUp_resolve (request : Request) : LooksUp (names.resolve index request) := by
  cases request with
  | alloc name =>
    intro error failed
    simp only [resolve] at failed
    split at failed
    next => cases failed; rfl
    next => cases failed
  | free name => exact names.looksUp_freeTask index name
  | place target | jump target => exact (names.looksUp_label index target).bind fun _ => .ok _
  | binop operator dst lhs rhs =>
    apply (looksUp_operator index operator).bind
    intro _
    apply (names.looksUp_register index dst).bind
    intro _
    exact (names.looksUp_register index lhs).bind fun _ => (names.looksUp_register index rhs).bind fun _ => .ok _
  | binopImm operator dst src value =>
    apply (looksUp_operator index operator).bind
    intro _
    exact (names.looksUp_register index dst).bind fun _ => (names.looksUp_register index src).bind fun _ => .ok _
  | beq lhs rhs target =>
    apply (names.looksUp_register index lhs).bind
    intro _
    exact (names.looksUp_register index rhs).bind fun _ => (names.looksUp_label index target).bind fun _ => .ok _
  | lw first second offset | sw first second offset | move first second =>
    exact (names.looksUp_register index first).bind fun _ => (names.looksUp_register index second).bind fun _ => .ok _
  | pushIf first second | pushElse first second | pushLoop first second =>
    exact (names.looksUp_label index first).bind fun _ => (names.looksUp_label index second).bind fun _ => .ok _
  | li reg value | la reg symbol | writeReg reg | writeString reg | readInt reg | beginIf reg | loopTest reg =>
    exact (names.looksUp_register index reg).bind fun _ => .ok _
  | label name | writeNewline | writeInt value | merge levels | close | beginElse | endIf | beginWhile | endWhile =>
    exact .ok _

end Names

/-! ## Requests that stop -/

namespace Replay

variable {replay after : Replay} {index : Nat} {request : Request} {error : ReplayError}

/-- A task that code generation refuses has bound nothing yet. -/
theorem perform_stops {task : Task} {cause : EmitError} (stops : (perform task).Stops replay cause after) :
    after = { replay with context := after.context } := by
  cases task with
  | bindSlot name | freeSlot name reg | bindLabel name =>
    simp only [perform, Action.stops_bind_iff, stops_onContext_iff, Action.not_stops_update, and_false, exists_false,
      or_false] at stops
    obtain ⟨context, _, rfl⟩ := stops
    rfl
  | step step =>
    simp only [perform, Action.stops_bind_iff, stops_onContext_iff, Action.not_stops_pure, and_false, exists_false,
      or_false] at stops
    obtain ⟨context, _, rfl⟩ := stops
    rfl

theorem apply_stops (stops : (apply index request).Stops replay error after) :
    (replay.names.resolve index request = .error error ∧ after = replay) ∨
      ∃ task cause, replay.names.resolve index request = .ok task ∧ (perform task).Stops replay cause after ∧
        error = .emission index request.name cause := by
  simp only [apply, Action.stops_bind_iff, Action.not_stops_read, Action.yields_read_iff, false_or,
    Action.stops_ofExcept_iff, Action.yields_ofExcept_iff, Action.stops_mapError_iff] at stops
  obtain ⟨_, _, ⟨rfl, rfl⟩, ⟨unresolved, rfl⟩ | ⟨task, _, ⟨resolves, rfl⟩, cause, refuses, rfl⟩⟩ := stops
  · exact .inl ⟨unresolved, rfl⟩
  · exact .inr ⟨task, cause, resolves, refuses, rfl⟩

/-- A refused request changes the context at most, and not even that if it was refused for a name. -/
theorem apply_stops_keeps (stops : (apply index request).Stops replay error after) :
    after = { replay with context := after.context } ∧ (error.concernsNames = true → after = replay) := by
  obtain ⟨_, rfl⟩ | ⟨task, cause, _, refuses, rfl⟩ := apply_stops stops
  · exact ⟨rfl, fun _ => rfl⟩
  · exact ⟨perform_stops refuses, fun concerns => by cases concerns⟩

/-- A run of requests stops at the first one that is refused, with the names that the ones before it bound. -/
theorem applyAll_stops {requests : List Request} (stops : (applyAll index requests).Stops replay error after) :
    ∃ applied request rest reached, requests = applied ++ request :: rest ∧
      (applyAll index applied).Yields replay () reached ∧
      (apply (index + applied.length) request).Stops reached error after ∧ after.names = reached.names := by
  induction requests generalizing index replay with
  | nil => exact absurd stops Action.not_stops_pure
  | cons request rest inductionHypothesis =>
    obtain refused | ⟨middle, applies, others⟩ := applyAll_cons_stops_iff.mp stops
    · have kept : after.names = replay.names := by rw [(apply_stops_keeps refused).1]
      exact ⟨[], request, rest, replay, rfl, Action.yields_pure_iff.mpr ⟨rfl, rfl⟩, refused, kept⟩
    · obtain ⟨applied, refusedRequest, rest, reached, rfl, runs, refused, kept⟩ := inductionHypothesis others
      have position : index + (request :: applied).length = index + 1 + applied.length := by
        rw [List.length_cons]
        omega
      exact ⟨request :: applied, refusedRequest, rest, reached, rfl,
        applyAll_cons_yields_iff.mpr ⟨middle, applies, runs⟩, position ▸ refused, kept⟩

/-- A request that is refused binds and unbinds no name, and counts for nothing. It is refused for a name exactly
when its names do not resolve, and then no register or label is taken, no text is emitted and no level is opened. -/
theorem refused_request_binds_nothing (refused : (apply index request).Stops replay error after) :
    after.names = replay.names ∧ after.summary = replay.summary ∧
      (error.concernsNames = true ↔ replay.names.resolve index request = .error error) ∧
      (error.concernsNames = true → after.context = replay.context) := by
  obtain ⟨kept, untouched⟩ := apply_stops_keeps refused
  have unresolved_iff : error.concernsNames = true ↔ replay.names.resolve index request = .error error := by
    constructor
    · intro concerns
      obtain ⟨unresolved, _⟩ | ⟨_, _, _, _, rfl⟩ := apply_stops refused
      · exact unresolved
      · cases concerns
    · exact fun unresolved => replay.names.looksUp_resolve index request error unresolved
  exact ⟨by rw [kept], by rw [kept], unresolved_iff, fun concerns => by rw [untouched concerns]⟩

/-- The first label of the level is known and the second is not, so the level is never opened. -/
theorem refused_request_binds_nothing_unknownLabel :
    ∃ replay after,
      (applyAll 0 [.alloc "a", .label "else", .li "a" 1]).Yields (start (Context.start {} {})) () replay ∧
        (apply 3 (.pushIf "else" "end")).Stops replay (.unknownLabel 3 "end") after ∧
        after.names = replay.names ∧ after.context = replay.context := by
  have reached : (applyAll 0 [.alloc "a", .label "else", .li "a" 1]).Yields (start (Context.start {} {})) () _ :=
    ⟨eq_ok_of_isOk (by decide +kernel), rfl⟩
  have refused : (apply 3 (.pushIf "else" "end")).Stops
      (applyAll 0 [.alloc "a", .label "else", .li "a" 1] (start (Context.start {} {}))).state
      (.unknownLabel 3 "end") _ := ⟨rfl, rfl⟩
  obtain ⟨names, _, _, context⟩ := refused_request_binds_nothing refused
  exact ⟨_, _, reached, refused, names, context rfl⟩

end Replay

end MipsBackend
