import MipsBackend.Proofs.Outcome
import MipsBackend.Session

/-! # Accounts of actions

An account relates the state before an action, the error it stopped with, if any, the events it reported and the
state after. Which primitive steps an operation is made of is looked at here, once for all accounts.

* `Action.Meets`: an account covers an action, whether it succeeds or fails.
* `EmissionAccount`: an account that covers text and levels. All control steps are made of these, so it covers them.
* `EmissionAccount.perform`: every step of a session is covered. A step that handles registers or labels, or starts
  afresh, is covered if the account covers that.
-/

namespace MipsBackend

/-! ## Accounts of sequences -/

/-- The error that an action stopped with. -/
def Outcome.error? {ε σ α : Type} (outcome : Outcome ε σ α) : Option ε :=
  match outcome.result with
  | .ok _ => none
  | .error error => some error

namespace Action

variable {ε σ α β : Type} {Told : σ → Option ε → List Event → σ → Prop}

/-- The account covers what the action does, whatever state it begins with. -/
def Meets (Told : σ → Option ε → List Event → σ → Prop) (action : Action ε σ α) : Prop :=
  ∀ before, Told before (action before).error? (action before).events (action before).state

theorem Meets.map {f : α → β} {action : Action ε σ α} (meets : action.Meets Told) : (f <$> action).Meets Told := by
  intro before
  have same : ((f <$> action) before).error? = (action before).error? := by
    cases result : (action before).result <;> simp [Outcome.error?, Except.map, result]
  rw [same, events_map, state_map]
  exact meets before

/-- A report on a failure is covered if the account lets it follow. -/
theorem Meets.reportingFailure {describe : σ → List Event} {action : Action ε σ α} (meets : action.Meets Told)
    (follows : ∀ {before error? events after}, Told before error? events after →
      Told before error? (events ++ describe after) after) : (action.reportingFailure describe).Meets Told := by
  intro before
  have told := meets before
  cases result : (action before).result with
  | ok value => simpa [Action.reportingFailure, result] using told
  | error error => simpa [Action.reportingFailure, Outcome.error?, result] using follows told

/-- An account that covers doing nothing, and a sequence whose parts it covers. -/
structure Account (Told : σ → Option ε → List Event → σ → Prop) : Prop where
  still (state : σ) (error? : Option ε) : Told state error? [] state
  trans {first second third : σ} {error? : Option ε} {earlier later : List Event} :
    Told first none earlier second → Told second error? later third → Told first error? (earlier ++ later) third

namespace Account

theorem pure (account : Account Told) (value : α) : (pure value : Action ε σ α).Meets Told :=
  fun state => account.still state none

theorem read (account : Account Told) : (read : Action ε σ σ).Meets Told := fun state => account.still state none

theorem ofExcept (account : Account Told) (result : Except ε α) : (ofExcept result : Action ε σ α).Meets Told :=
  fun state => account.still state _

theorem fail (account : Account Told) (error : ε) : (fail error : Action ε σ α).Meets Told :=
  fun state => account.still state (some error)

theorem bind (account : Account Told) {action : Action ε σ α} {next : α → Action ε σ β} (first : action.Meets Told)
    (second : ∀ value, (next value).Meets Told) : (action >>= next).Meets Told := by
  intro before
  cases result : (action before).result with
  | ok given =>
    have begins := first before
    rw [Outcome.error?, result] at begins
    rw [bind_eq_of_ok result]
    exact account.trans begins (second given _)
  | error error =>
    have stops := first before
    rw [Outcome.error?, result] at stops
    rw [bind_eq_of_error result]
    exact stops

end Account

end Action

/-! ## Accounts of emissions -/

/-- An account of contexts that covers the steps on text and levels. -/
structure EmissionAccount (Told : Context → Option EmitError → List Event → Context → Prop) : Prop
    extends Action.Account Told where
  append (text : String) : (Emission.append text).Meets Told
  push (construct : Construct) : (Emission.push construct).Meets Told
  merge (count : Nat) : (Emission.merge count).Meets Told
  close : Emission.close.Meets Told
  literals (count : Nat) : (Action.report (.literals count) : Emission Unit).Meets Told

namespace EmissionAccount

variable {Told : Context → Option EmitError → List Event → Context → Prop}

/-! ### Framing a program -/

theorem emitFragment (account : EmissionAccount Told) (fragment : Fragment) :
    (Emission.emitFragment fragment).Meets Told :=
  account.bind account.read fun _ => account.append _

theorem emit (account : EmissionAccount Told) (operation : Operation) : (Emission.emit operation).Meets Told :=
  account.emitFragment operation.fragment

theorem ensureUnbuffered (account : EmissionAccount Told) : Emission.ensureUnbuffered.Meets Told := by
  refine account.bind account.read fun context => ?_
  split
  · exact account.pure ()
  · exact account.fail _

theorem epilog (account : EmissionAccount Told) : Emission.epilog.Meets Told :=
  account.bind account.ensureUnbuffered fun _ => account.emitFragment _

theorem stringLiterals (account : EmissionAccount Told) (table : StringTable) :
    (Emission.stringLiterals table).Meets Told := by
  refine account.bind account.ensureUnbuffered fun _ => ?_
  refine account.bind (account.ofExcept _) fun entries => ?_
  exact account.bind (account.literals _) fun _ => account.emitFragment _

theorem finish (account : EmissionAccount Told) (table : StringTable) : (Emission.finish table).Meets Told :=
  account.bind account.epilog fun _ => account.stringLiterals table

/-! ### Control steps -/

theorem top (account : EmissionAccount Told) : (Emission.onStack BufferStack.top).Meets Told := by
  intro context
  cases levels : context.stack.levels with
  | nil => simpa [Emission.onStack, Action.focus, BufferStack.top, levels] using account.still context _
  | cons level rest => simpa [Emission.onStack, Action.focus, BufferStack.top, levels] using account.still context _

theorem topConstruct (account : EmissionAccount Told) : Emission.topConstruct.Meets Told :=
  account.bind account.top fun _ => account.pure _

/-- A conditional takes its labels first. What follows is a matter of text and levels. -/
theorem beginIf (account : EmissionAccount Told) (newLabel : Emission.newLabel.Meets Told) (cond : Reg) :
    (Emission.beginIf cond).Meets Told := by
  refine account.bind newLabel fun elseLabel => account.bind newLabel fun endLabel => ?_
  exact account.bind (account.emit _) fun _ => account.push _

theorem beginElse (account : EmissionAccount Told) : Emission.beginElse.Meets Told := by
  refine account.bind account.topConstruct fun construct => ?_
  split
  · refine account.bind (account.emit _) fun _ => ?_
    exact account.bind (account.push _) fun _ => account.emit _
  · exact account.fail _

theorem endIf (account : EmissionAccount Told) : Emission.endIf.Meets Told := by
  refine account.bind account.topConstruct fun construct => ?_
  split
  · refine account.bind (account.merge 2) fun _ => ?_
    exact account.bind account.close fun _ => account.emit _
  · exact account.bind account.close fun _ => account.emit _
  · exact account.fail _

theorem beginWhile (account : EmissionAccount Told) (newLabel : Emission.newLabel.Meets Told) :
    Emission.beginWhile.Meets Told := by
  refine account.bind newLabel fun entryLabel => account.bind newLabel fun exitLabel => ?_
  exact account.bind (account.push _) fun _ => account.emit _

theorem loopLabels (account : EmissionAccount Told) : Emission.loopLabels.Meets Told := by
  refine account.bind account.topConstruct fun construct => ?_
  split
  · exact account.pure _
  · exact account.fail _

theorem loopTest (account : EmissionAccount Told) (cond : Reg) : (Emission.loopTest cond).Meets Told :=
  account.bind account.loopLabels fun _ => account.emit _

theorem endWhile (account : EmissionAccount Told) : Emission.endWhile.Meets Told := by
  refine account.bind account.loopLabels fun labels => ?_
  refine account.bind (account.emit _) fun _ => account.bind (account.emit _) fun _ => ?_
  exact account.bind account.close fun _ => account.pure ()

end EmissionAccount

/-! ## Steps of a session -/

namespace Step

/-- Whether a step is about registers: it asks for one, gives one back, looks which are free, or starts afresh. -/
def handlesRegisters : Step → Bool
  | alloc | free _ | isFree _ | busy | reset => true
  | _ => false

/-- Whether a step uses up labels or starts their numbers afresh. -/
def handlesLabels : Step → Bool
  | label | beginIf _ | beginWhile | reset => true
  | _ => false

end Step

theorem EmissionAccount.perform {Told : Context → Option EmitError → List Event → Context → Prop}
    (account : EmissionAccount Told) {step : Step} (alloc : step = .alloc → Emission.alloc.Meets Told)
    (free : ∀ reg, step = .free reg → (Emission.free reg).Meets Told)
    (newLabel : step.handlesLabels = true → Emission.newLabel.Meets Told)
    (afresh : step = .reset ∨ step = .release → step.perform.Meets Told) : step.perform.Meets Told := by
  cases step with
  | alloc => exact (alloc rfl).map
  | free reg => exact (free reg rfl).map
  | isFree reg | busy | peek | options | isBuffered | enclosing => exact account.read.map
  | label => exact (newLabel rfl).map
  | push construct => exact (account.push construct).map
  | merge count => exact (account.merge count).map
  | close => exact account.close.map
  | append text => exact (account.append text).map
  | appendAll insts => exact (account.append _).map
  | top => exact account.top.map
  | emit operation => exact (account.emit operation).map
  | prolog => exact (account.emitFragment _).map
  | epilog => exact account.epilog.map
  | stringLiterals table => exact (account.stringLiterals table).map
  | finish table => exact (account.finish table).map
  | beginIf cond => exact (account.beginIf (newLabel rfl) cond).map
  | beginElse => exact account.beginElse.map
  | endIf => exact account.endIf.map
  | beginWhile => exact (account.beginWhile (newLabel rfl)).map
  | loopTest cond => exact (account.loopTest cond).map
  | endWhile => exact account.endWhile.map
  | reset => exact afresh (.inl rfl)
  | release => exact afresh (.inr rfl)

end MipsBackend
