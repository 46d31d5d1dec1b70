import MipsBackend.Proofs.DirectEmission
import MipsBackend.Proofs.Reachability
import MipsBackend.Proofs.RefusedRequests

/-! # Errors of code generation

Which errors an action can stop with is told by those of its primitive steps. On a stream that never fails, whatever
stops an action is the action's own doing.

* `Action.Confines`: what an action keeps of the state, and the errors it stops with where that holds.
* `Emission.Confinement`: which contexts are kept and which errors admitted, as far as writing decides that. All steps
  of code generation are confined so, and with them whole replays.
* `Step.perform_confined`: no step of code generation fails because of a reliable stream, and none spoils it.
* `Script.exitCode_of_reliable`: so the exit status of a failed replay is the one of its own errors.
-/

namespace MipsBackend

variable {ε ε' σ τ α β : Type}

/-! ## Actions -/

/-- From states that meet `keeps`, the action leads to such states and stops only with errors that meet `admits`. -/
structure Action.Confines (keeps : σ → Prop) (admits : ε → Prop) (action : Action ε σ α) : Prop where
  state : ∀ {before}, keeps before → keeps (action before).state
  error : ∀ {before cause}, keeps before → (action before).result = .error cause → admits cause

namespace Action

variable {keeps : σ → Prop} {admits : ε → Prop} {action : Action ε σ α}

theorem confines_pure (value : α) : (pure value : Action ε σ α).Confines keeps admits :=
  ⟨fun kept => kept, fun _ stopped => by cases stopped⟩

theorem confines_read : (read : Action ε σ σ).Confines keeps admits :=
  ⟨fun kept => kept, fun _ stopped => by cases stopped⟩

theorem confines_report (event : Event) : (report event : Action ε σ Unit).Confines keeps admits :=
  ⟨fun kept => kept, fun _ stopped => by cases stopped⟩

theorem confines_update {f : σ → σ} (kept : ∀ state, keeps state → keeps (f state)) :
    (update f : Action ε σ Unit).Confines keeps admits :=
  ⟨fun before => kept _ before, fun _ stopped => by cases stopped⟩

theorem confines_fail {cause : ε} (admitted : admits cause) : (fail cause : Action ε σ α).Confines keeps admits where
  state := fun kept => kept
  error := by
    intro before other kept stopped
    cases stopped
    exact admitted

theorem confines_ofExcept {result : Except ε α} (errors : ErrorsMeet admits result) :
    (ofExcept result : Action ε σ α).Confines keeps admits :=
  ⟨fun kept => kept, fun _ stopped => errors _ stopped⟩

/-- What follows a value computed already may count on how it was computed. -/
theorem confines_ofExcept_bind {result : Except ε α} {next : α → Action ε σ β} (errors : ErrorsMeet admits result)
    (second : ∀ value, result = .ok value → (next value).Confines keeps admits) :
    (ofExcept result >>= next).Confines keeps admits := by
  cases result with
  | ok value => exact second value rfl
  | error cause => exact confines_fail (errors cause rfl)

namespace Confines

theorem bind {next : α → Action ε σ β} (first : action.Confines keeps admits)
    (second : ∀ value, (next value).Confines keeps admits) : (action >>= next).Confines keeps admits where
  state := by
    intro before kept
    cases result : (action before).result with
    | ok value =>
      rw [bind_eq_of_ok result]
      exact (second value).state (first.state kept)
    | error cause =>
      rw [bind_eq_of_error result]
      exact first.state kept
  error := by
    intro before cause kept stopped
    cases result : (action before).result with
    | ok value =>
      rw [bind_eq_of_ok result] at stopped
      exact (second value).error (first.state kept) stopped
    | error earlier =>
      rw [bind_eq_of_error result] at stopped
      cases stopped
      exact first.error kept result

theorem map {f : α → β} (confines : action.Confines keeps admits) : (f <$> action).Confines keeps admits := by
  rw [map_eq_pure_bind]
  exact confines.bind fun value => confines_pure (f value)

theorem reportingFailure {describe : σ → List Event} (confines : action.Confines keeps admits) :
    (action.reportingFailure describe).Confines keeps admits where
  state := by
    intro before kept
    have after := confines.state kept
    cases result : (action before).result <;> simpa [Action.reportingFailure, result] using after
  error := by
    intro before cause kept stopped
    apply confines.error kept
    cases result : (action before).result with
    | ok value => simp [Action.reportingFailure, result] at stopped
    | error earlier => simpa [Action.reportingFailure, result] using stopped

theorem focus {part : τ → σ} {replace : τ → σ → τ} {whole : τ → Prop} (confines : action.Confines keeps admits)
    (inside : ∀ {state}, whole state → keeps (part state))
    (outside : ∀ {state inner}, whole state → keeps inner → whole (replace state inner)) :
    (action.focus part replace).Confines whole admits where
  state := fun kept => outside kept (confines.state (inside kept))
  error := fun kept stopped => confines.error (inside kept) stopped

theorem mapError {reword : ε → ε'} {admits' : ε' → Prop} (confines : action.Confines keeps admits)
    (reworded : ∀ cause, admits cause → admits' (reword cause)) :
    (action.mapError reword).Confines keeps admits' where
  state := fun kept => confines.state kept
  error := by
    intro before cause kept stopped
    cases result : (action before).result with
    | ok value => simp [Action.mapError, result] at stopped
    | error earlier =>
      obtain rfl : reword earlier = cause := by simpa [Action.mapError, result] using stopped
      exact reworded earlier (confines.error kept result)

end Confines

end Action

/-! ## Steps of code generation -/

/-- The error is about registers, labels, levels or constructs. Neither a stream nor a table of literals causes it. -/
def EmitError.IsInternal : EmitError → Prop
  | io _ | missingLiteral _ => False
  | _ => True

/-- The error does not come from a stream. -/
def EmitError.IsOwn : EmitError → Prop
  | io _ => False
  | _ => True

theorem EmitError.IsInternal.isOwn {error : EmitError} (internal : error.IsInternal) : error.IsOwn := by
  cases error with
  | io fault => cases internal
  | _ => trivial

theorem EmitError.IsOwn.exitCode_eq {error : EmitError} (own : error.IsOwn) : error.exitCode = 1 := by
  cases error with
  | io fault => cases own
  | _ => rfl

namespace BufferStack

/-- An action on a stack has no stream to fail and no literals to miss. -/
abbrev Confined (action : Action EmitError BufferStack α) : Prop :=
  action.Confines (fun _ => True) EmitError.IsInternal

theorem confined_of_stops {action : Action EmitError BufferStack α}
    (internal : ∀ {stack cause after}, action.Stops stack cause after → cause.IsInternal) : Confined action :=
  ⟨fun _ => trivial, fun _ stopped => internal ⟨stopped, rfl⟩⟩

theorem push_confined (construct : Construct) : Confined (push construct) := by
  apply confined_of_stops
  intro stack cause after stops
  obtain ⟨-, rfl, -⟩ := push_stops_iff.mp stops
  trivial

theorem top_confined : Confined top := by
  apply confined_of_stops
  intro stack cause after stops
  obtain ⟨-, rfl, -⟩ := top_stops_iff.mp stops
  trivial

theorem pop_confined : Confined pop := by
  apply confined_of_stops
  intro stack cause after stops
  obtain ⟨-, rfl, -⟩ := pop_stops_iff.mp stops
  trivial

theorem append_confined (text : String) : Confined (append text) := by
  apply confined_of_stops
  intro stack cause after stops
  obtain ⟨-, refused⟩ := append_stops_iff.mp stops
  split at refused
  · obtain rfl := refused
    trivial
  · obtain ⟨-, rfl⟩ := refused
    trivial

theorem mergeInnermost_confined : Confined mergeInnermost := by
  apply pop_confined.bind
  intro inner
  apply (append_confined inner.text).bind
  intro _
  apply top_confined.bind
  intro outer
  apply (Action.confines_report _).bind
  intro _
  exact Action.confines_update fun _ _ => trivial

theorem mergeSteps_confined (steps : Nat) : Confined (mergeSteps steps) := by
  induction steps with
  | zero => exact Action.confines_pure ()
  | succ steps ih => exact mergeInnermost_confined.bind fun _ => ih

theorem merge_confined (count : Nat) : Confined (merge count) := by
  apply Action.confines_read.bind
  intro stack
  split
  · exact Action.confines_fail trivial
  · split
    · exact Action.confines_fail trivial
    · apply (mergeSteps_confined (count - 1)).bind
      intro _
      exact Action.confines_read.bind fun merged => Action.confines_report _

end BufferStack

/-- What code generation keeps of a context and the errors it stops with, as far as both come down to writing:
registers, labels and levels may change, and every error about them is admitted. -/
structure Emission.Confinement (keeps : Context → Prop) (admits : EmitError → Prop) : Prop where
  internal {error : EmitError} : error.IsInternal → admits error
  within {context : Context} (pool : RegisterPool) (stack : BufferStack) (labels : LabelSupply) :
    keeps context → keeps { context with pool, stack, labels }
  write (text : String) : (Emission.write text).Confines keeps admits

namespace Emission.Confinement

variable {keeps : Context → Prop} {admits : EmitError → Prop}

theorem onStack (confinement : Confinement keeps admits) {action : Action EmitError BufferStack α}
    (confined : BufferStack.Confined action) : (Emission.onStack action).Confines keeps admits where
  state := fun kept => confinement.within _ _ _ kept
  error := fun _ stopped => confinement.internal (confined.error trivial stopped)

theorem onPool (confinement : Confinement keeps admits) {action : Action EmitError RegisterPool α}
    (internal : ∀ pool cause, (action pool).result = .error cause → cause.IsInternal) :
    (Emission.onPool action).Confines keeps admits where
  state := fun kept => confinement.within _ _ _ kept
  error := fun _ stopped => confinement.internal (internal _ _ stopped)

theorem alloc (confinement : Confinement keeps admits) : Emission.alloc.Confines keeps admits := by
  apply Action.Confines.reportingFailure
  apply confinement.onPool
  intro pool cause stopped
  unfold RegisterPool.allocate at stopped
  grind [EmitError.IsInternal]

theorem free (confinement : Confinement keeps admits) (reg : Reg) : (Emission.free reg).Confines keeps admits := by
  apply confinement.onPool
  intro pool cause stopped
  unfold RegisterPool.free at stopped
  grind [EmitError.IsInternal]

theorem newLabel (confinement : Confinement keeps admits) : Emission.newLabel.Confines keeps admits :=
  ⟨fun kept => confinement.within _ _ _ kept, fun _ stopped => by cases stopped⟩

theorem append (confinement : Confinement keeps admits) (text : String) :
    (Emission.append text).Confines keeps admits := by
  apply Action.confines_read.bind
  intro context
  split
  · apply (confinement.onStack (BufferStack.append_confined text)).bind
    intro _
    exact (confinement.onStack BufferStack.top_confined).bind fun level => Action.confines_report _
  · exact confinement.write text

theorem push (confinement : Confinement keeps admits) (construct : Construct) :
    (Emission.push construct).Confines keeps admits :=
  (confinement.onStack (BufferStack.push_confined construct)).reportingFailure

theorem merge (confinement : Confinement keeps admits) (count : Nat) :
    (Emission.merge count).Confines keeps admits :=
  (confinement.onStack (BufferStack.merge_confined count)).reportingFailure

theorem close (confinement : Confinement keeps admits) : Emission.close.Confines keeps admits := by
  -- What cannot be closed is refused before anything is taken off the stack.
  have check (stack : BufferStack) : (Action.ofExcept (closable stack) : Emission Unit).Confines keeps admits := by
    apply Action.confines_ofExcept
    intro cause refused
    apply confinement.internal
    unfold closable at refused
    grind [EmitError.IsInternal]
  apply Action.confines_read.bind
  intro context
  apply (check context.stack).reportingFailure.bind
  intro _
  apply (confinement.onStack BufferStack.pop_confined).bind
  intro level
  apply (confinement.append level.text).bind
  intro _
  apply Action.confines_read.bind
  intro outside
  apply (Action.confines_report _).bind
  intro _
  apply (confinement.onStack (Action.confines_update fun _ _ => trivial)).bind
  intro _
  exact Action.confines_pure _

/-! ### Control steps -/

theorem emitFragment (confinement : Confinement keeps admits) (fragment : Fragment) :
    (Emission.emitFragment fragment).Confines keeps admits :=
  Action.confines_read.bind fun _ => confinement.append _

theorem emit (confinement : Confinement keeps admits) (operation : Operation) :
    (Emission.emit operation).Confines keeps admits :=
  confinement.emitFragment operation.fragment

theorem mismatch (confinement : Confinement keeps admits) (expected found : ConstructKind) :
    (Action.fail (.constructMismatch expected found) : Emission α).Confines keeps admits :=
  Action.confines_fail (confinement.internal trivial)

theorem topConstruct (confinement : Confinement keeps admits) : Emission.topConstruct.Confines keeps admits :=
  (confinement.onStack BufferStack.top_confined).bind fun _ => Action.confines_pure _

theorem beginIf (confinement : Confinement keeps admits) (cond : Reg) :
    (Emission.beginIf cond).Confines keeps admits := by
  apply confinement.newLabel.bind
  intro elseLabel
  apply confinement.newLabel.bind
  intro endLabel
  exact (confinement.emit _).bind fun _ => confinement.push _

theorem beginElse (confinement : Confinement keeps admits) : Emission.beginElse.Confines keeps admits := by
  apply confinement.topConstruct.bind
  intro construct
  split
  · exact (confinement.emit _).bind fun _ => (confinement.push _).bind fun _ => confinement.emit _
  · exact confinement.mismatch _ _

theorem endIf (confinement : Confinement keeps admits) : Emission.endIf.Confines keeps admits := by
  apply confinement.topConstruct.bind
  intro construct
  split
  · exact (confinement.merge 2).bind fun _ => confinement.close.bind fun _ => confinement.emit _
  · exact confinement.close.bind fun _ => confinement.emit _
  · exact confinement.mismatch _ _

theorem beginWhile (confinement : Confinement keeps admits) : Emission.beginWhile.Confines keeps admits := by
  apply confinement.newLabel.bind
  intro entryLabel
  apply confinement.newLabel.bind
  intro exitLabel
  exact (confinement.push _).bind fun _ => confinement.emit _

theorem loopLabels (confinement : Confinement keeps admits) : Emission.loopLabels.Confines keeps admits := by
  apply confinement.topConstruct.bind
  intro construct
  split
  · exact Action.confines_pure _
  · exact confinement.mismatch _ _

theorem loopTest (confinement : Confinement keeps admits) (cond : Reg) :
    (Emission.loopTest cond).Confines keeps admits :=
  confinement.loopLabels.bind fun _ => confinement.emit _

theorem endWhile (confinement : Confinement keeps admits) : Emission.endWhile.Confines keeps admits := by
  apply confinement.loopLabels.bind
  intro labels
  apply (confinement.emit _).bind
  intro _
  apply (confinement.emit _).bind
  intro _
  exact confinement.close.bind fun _ => Action.confines_pure _

/-! ### Framing a program -/

theorem ensureUnbuffered (confinement : Confinement keeps admits) :
    Emission.ensureUnbuffered.Confines keeps admits := by
  apply Action.confines_read.bind
  intro context
  split
  · exact Action.confines_pure _
  · exact Action.confines_fail (confinement.internal trivial)

theorem epilog (confinement : Confinement keeps admits) : Emission.epilog.Confines keeps admits :=
  confinement.ensureUnbuffered.bind fun _ => confinement.emitFragment _

/-- The data section is all that a missing literal can stop. -/
theorem stringLiterals (confinement : Confinement keeps admits) {table : StringTable}
    (missing : ∀ name, table.entries = .error name → admits (.missingLiteral name)) :
    (Emission.stringLiterals table).Confines keeps admits := by
  apply confinement.ensureUnbuffered.bind
  intro _
  apply Action.Confines.bind
  · apply Action.confines_ofExcept
    intro cause refused
    cases entries : table.entries with
    | ok found => simp [entries] at refused
    | error name =>
      obtain rfl : EmitError.missingLiteral name = cause := by simpa [entries] using refused
      exact missing name entries
  · intro entries
    exact (Action.confines_report _).bind fun _ => confinement.emitFragment _

theorem finish (confinement : Confinement keeps admits) {table : StringTable}
    (missing : ∀ name, table.entries = .error name → admits (.missingLiteral name)) :
    (Emission.finish table).Confines keeps admits :=
  confinement.epilog.bind fun _ => confinement.stringLiterals missing

/-! ### Steps of a session -/

/-- Every step is confined, if the literals that are missing and the end of the output are. -/
theorem perform (confinement : Confinement keeps admits) {step : Step}
    (missing : ∀ table, step = .stringLiterals table ∨ step = .finish table →
      ∀ name, table.entries = .error name → admits (.missingLiteral name))
    (released : step = .release → Emission.release.Confines keeps admits) : step.perform.Confines keeps admits := by
  cases step with
  | alloc => exact confinement.alloc.map
  | free reg => exact (confinement.free reg).map
  | isFree reg | busy | peek | options | isBuffered | enclosing => exact Action.confines_read.map
  | label => exact confinement.newLabel.map
  | push construct => exact (confinement.push construct).map
  | merge count => exact (confinement.merge count).map
  | close => exact confinement.close.map
  | append text => exact (confinement.append text).map
  | appendAll insts => exact (confinement.append _).map
  | top => exact (confinement.onStack BufferStack.top_confined).map
  | emit operation => exact (confinement.emit operation).map
  | prolog => exact (confinement.emitFragment _).map
  | epilog => exact confinement.epilog.map
  | stringLiterals table => exact (confinement.stringLiterals (missing table (.inl rfl))).map
  | finish table => exact (confinement.finish (missing table (.inr rfl))).map
  | beginIf cond => exact (confinement.beginIf cond).map
  | beginElse => exact confinement.beginElse.map
  | endIf => exact confinement.endIf.map
  | beginWhile => exact confinement.beginWhile.map
  | loopTest cond => exact (confinement.loopTest cond).map
  | endWhile => exact confinement.endWhile.map
  | reset =>
    have kept : (Action.update Context.reset : Emission Unit).Confines keeps admits :=
      Action.confines_update fun _ kept => confinement.within _ _ _ kept
    exact kept.map
  | release => exact (released rfl).map

end Emission.Confinement

/-! ## Replays -/

/-- The errors of a replay that are admitted when those of code generation are: all that are caused by an admitted
one, and all that are about names. -/
structure ReplayError.Admission (admits : EmitError → Prop) (admitsAll : ReplayError → Prop) : Prop where
  names {error : ReplayError} : error.concernsNames = true → admitsAll error
  emission {cause : EmitError} (index : Nat) (request : String) : admits cause → admitsAll (.emission index request cause)
  finish {cause : EmitError} : admits cause → admitsAll (.finish cause)

namespace Emission.Confinement

variable {keeps : Context → Prop} {admits : EmitError → Prop} {admitsAll : ReplayError → Prop}

theorem onContext {emission : Emission α} (confined : emission.Confines keeps admits) :
    (Replay.onContext emission).Confines (fun replay => keeps replay.context) admits :=
  confined.focus (fun kept => kept) fun _ kept => kept

/-- Requests ask for no string data and do not release the output. -/
theorem performTask (confinement : Confinement keeps admits) {task : Task}
    (scripted : ∀ step, task = .step step → step.isScripted = true) :
    (Replay.perform task).Confines (fun replay => keeps replay.context) admits := by
  cases task with
  | bindSlot name => exact (onContext confinement.alloc).bind fun _ => Action.confines_update fun _ kept => kept
  | freeSlot name reg =>
    exact (onContext (confinement.free reg)).bind fun _ => Action.confines_update fun _ kept => kept
  | bindLabel name => exact (onContext confinement.newLabel).bind fun _ => Action.confines_update fun _ kept => kept
  | step step =>
    have isScripted := scripted step rfl
    have performs : step.perform.Confines keeps admits := by
      apply confinement.perform
      · rintro table (rfl | rfl) <;> cases isScripted
      · rintro rfl
        cases isScripted
    exact (onContext performs).bind fun _ => Action.confines_pure _

theorem apply (confinement : Confinement keeps admits) (admission : ReplayError.Admission admits admitsAll)
    (index : Nat) (request : Request) :
    (Replay.apply index request).Confines (fun replay => keeps replay.context) admitsAll := by
  apply Action.confines_read.bind
  intro replay
  apply Action.confines_ofExcept_bind
  · intro error unresolved
    exact admission.names (replay.names.looksUp_resolve index request error unresolved)
  · intro task resolves
    have scripted : ∀ step, task = .step step → step.isScripted = true := by
      rintro step rfl
      exact Names.resolve_step resolves
    exact (confinement.performTask scripted).mapError fun cause => admission.emission index request.name

theorem applyAll (confinement : Confinement keeps admits) (admission : ReplayError.Admission admits admitsAll)
    (index : Nat) (requests : List Request) :
    (Replay.applyAll index requests).Confines (fun replay => keeps replay.context) admitsAll := by
  induction requests generalizing index with
  | nil => exact Action.confines_pure ()
  | cons request rest ih =>
    apply (Action.confines_report _).bind
    intro _
    apply (confinement.apply admission index request).bind
    intro _
    have tallied : (Action.update Replay.tally : Action ReplayError Replay Unit).Confines
        (fun replay => keeps replay.context) admitsAll := Action.confines_update fun _ kept => kept
    exact tallied.bind fun _ => ih (index + 1)

/-- The literals of a script are all stored, so none is missing at its end. -/
theorem run (confinement : Confinement keeps admits) (admission : ReplayError.Admission admits admitsAll)
    (released : Emission.release.Confines keeps admits) (script : Script) :
    (Replay.run script).Confines (fun replay => keeps replay.context) admitsAll := by
  have ends : (Emission.finish (StringLiterals.ofList script.strings).table).Confines keeps admits := by
    apply confinement.finish
    intro name missing
    rw [StringLiterals.entries_ofList] at missing
    cases missing
  have concluded : (Action.update (Replay.conclude script.strings) : Action ReplayError Replay Unit).Confines
      (fun replay => keeps replay.context) admitsAll := Action.confines_update fun _ kept => kept
  apply ((onContext (confinement.emitFragment .prolog)).mapError fun _ => admission.emission 0 "prolog").bind
  intro _
  apply (confinement.applyAll admission 0 script.requests).bind
  intro _
  apply ((onContext ends).mapError fun _ => admission.finish).bind
  intro _
  apply concluded.bind
  intro _
  apply Action.confines_read.bind
  intro replay
  apply (Action.confines_report _).bind
  intro _
  apply ((onContext released).mapError fun _ => admission.finish).bind
  intro _
  exact Action.confines_pure ()

end Emission.Confinement

/-! ## Reliable streams -/

namespace Emission

/-- The step keeps a reliable stream reliable and does not fail because of it. -/
abbrev Confined (emission : Emission α) : Prop :=
  emission.Confines (fun context => context.stream.IsReliable) EmitError.IsOwn

theorem confinement_of_reliable : Confinement (fun context => context.stream.IsReliable) EmitError.IsOwn where
  internal := EmitError.IsInternal.isOwn
  within _ _ _ reliable := reliable
  write text :=
    { state := by
        intro context reliable
        simp only [write, Stream.write_of_reliable reliable.1]
        exact reliable
      error := by
        intro context cause reliable stopped
        simp [write, Stream.write_of_reliable reliable.1] at stopped }

theorem release_confined : Confined release where
  state := by
    intro context reliable
    obtain ⟨-, -, limit, flush⟩ := by simpa [Context.bounds] using Context.bounds_progression.release context
    exact ⟨limit.trans reliable.1, flush.trans reliable.2⟩
  error := by
    -- Releasing flushes the stream, and only that could fail.
    intro context cause reliable stopped
    obtain ⟨size, after, releases⟩ := release_of_faultless reliable.2
    cases releases.1.symm.trans stopped

end Emission

theorem Step.perform_confined (step : Step) : Emission.Confined step.perform :=
  Emission.confinement_of_reliable.perform (fun _ _ _ _ => trivial) fun _ => Emission.release_confined

namespace Replay

/-- The action keeps a reliable stream reliable, and no error of a stream gives its exit status. -/
abbrev Confined (action : Action ReplayError Replay α) : Prop :=
  action.Confines (fun replay => replay.context.stream.IsReliable) fun error => error.exitCode = 1

theorem admission_of_reliable : ReplayError.Admission EmitError.IsOwn fun error => error.exitCode = 1 where
  names := ReplayError.exitCode_of_concernsNames
  emission _ _ own := own.exitCode_eq
  finish own := own.exitCode_eq

theorem applyAll_confined (index : Nat) (requests : List Request) : Confined (applyAll index requests) :=
  Emission.confinement_of_reliable.applyAll admission_of_reliable index requests

theorem run_confined (script : Script) : Confined (run script) :=
  Emission.confinement_of_reliable.run admission_of_reliable Emission.release_confined script

end Replay

/-- A replay that fails on a reliable stream fails for reasons of its own. -/
theorem Script.exitCode_of_reliable {script : Script} {options : Options} {stream : Stream} {error : ReplayError}
    (reliable : stream.IsReliable) (failed : (script.replay options stream).result = .error error) :
    error.exitCode = 1 :=
  (Replay.run_confined script).error reliable failed

end MipsBackend
