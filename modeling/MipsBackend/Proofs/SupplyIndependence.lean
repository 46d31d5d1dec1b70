import Mathlib.Data.List.DropRight
import MipsBackend.Proofs.TextConservation

/-! # Registers and labels apart from emission

Registers and labels are handed out as they are asked for. Whatever else a session does, under whatever options and on
whatever stream, makes no difference to them, and neither does what of it fails.

* `outcomesOf`: what the steps of one kind left behind in a session.
* `Step.Isolates`: a part of the context that is the business of the steps of one kind only.
* `Step.Isolates.alone`: these steps go as in a session where no others are performed.
* `session_supplies_independent`: the registers and the labels of any two sessions.
-/

namespace MipsBackend

/-- What the steps of one kind left behind in a session. -/
def outcomesOf (kind : Step → Bool) (steps : List Step) (context : Context) :
    List (Outcome EmitError Context Answer) :=
  ((steps.zip (session steps context)).filter fun entry => kind entry.1).map Prod.snd

theorem outcomesOf_cons (kind : Step → Bool) (step : Step) (rest : List Step) (context : Context) :
    outcomesOf kind (step :: rest) context =
      if kind step then step.perform context :: outcomesOf kind rest (step.perform context).state
      else outcomesOf kind rest (step.perform context).state := by
  cases isKind : kind step <;> simp [outcomesOf, session, isKind]

/-! ## Steps of one kind -/

namespace Step

variable {γ δ : Type} {kind : Step → Bool} {part : Context → γ} {seen : Outcome EmitError Context Answer → δ}

/-- Only the steps of one kind change a part of the context, and what is seen of them depends on that part alone. -/
structure Isolates (kind : Step → Bool) (part : Context → γ) (seen : Outcome EmitError Context Answer → δ) :
    Prop where
  aside {step : Step} : kind step = false → step.perform.Preserves part
  alike {step : Step} {context other : Context} : kind step = true → part context = part other →
    seen (step.perform context) = seen (step.perform other) ∧
      part (step.perform context).state = part (step.perform other).state

/-- The steps of an isolated kind go as if no other step were performed. -/
theorem Isolates.alone (isolates : Isolates kind part seen) (steps : List Step) {context other : Context}
    (same : part context = part other) :
    (outcomesOf kind steps context).map seen = (session (steps.filter kind) other).map seen ∧
      part (context.after steps) = part (other.after (steps.filter kind)) := by
  induction steps generalizing context other with
  | nil => exact ⟨rfl, same⟩
  | cons step rest ih =>
    rw [outcomesOf_cons]
    cases isKind : kind step with
    | true =>
      obtain ⟨looks, still⟩ := isolates.alike isKind same
      obtain ⟨others, last⟩ := ih still
      rw [List.filter_cons_of_pos isKind, if_pos rfl]
      refine ⟨?_, last⟩
      rw [session, List.map_cons, List.map_cons, looks, others]
    | false =>
      have still := (isolates.aside isKind context).trans same
      rw [List.filter_cons_of_neg (by simp [isKind]), if_neg (by simp)]
      exact ih still

/-- Two sessions with the same steps of an isolated kind are the same as far as these steps go. -/
theorem Isolates.together (isolates : Isolates kind part seen) {steps others : List Step}
    (sameSteps : steps.filter kind = others.filter kind) {context other : Context} (same : part context = part other) :
    (outcomesOf kind steps context).map seen = (outcomesOf kind others other).map seen ∧
      part (context.after steps) = part (other.after others) := by
  obtain ⟨seenAlone, lastAlone⟩ := isolates.alone steps same
  obtain ⟨otherAlone, otherLast⟩ := isolates.alone others (rfl : part other = part other)
  rw [seenAlone, lastAlone, otherAlone, otherLast, sameSteps]
  exact ⟨rfl, rfl⟩

end Step

/-- A part that has to do neither with levels nor with the stream stays as it is in all steps on these. -/
theorem Context.progression_of_aside {γ : Type} {part : Context → γ}
    (stack : ∀ context stack, part { context with stack } = part context)
    (stream : ∀ context stream, part { context with stream } = part context) :
    Progression (fun _ _ => True) fun before after => part after = part before where
  stack := ⟨fun _ => trivial, fun _ _ => trivial, fun _ _ => trivial, fun _ => trivial, fun _ _ => trivial,
    fun _ _ => trivial, fun _ => trivial⟩
  refl _ := rfl
  trans earlier later := later.trans earlier
  within context _ _ := stack context _
  write _ context := stream context _

/-! ## Registers -/

theorem Context.pool_progression : Progression (fun _ _ => True) fun before after => after.pool = before.pool :=
  progression_of_aside (fun _ _ => rfl) fun _ _ => rfl

theorem Step.isolates_registers : Isolates handlesRegisters Context.pool Outcome.result where
  aside := by
    intro step other
    exact Context.pool_progression.perform (by simp [other]) fun _ _ _ => rfl
  alike := by
    intro step context other handles same
    cases step with
    | alloc | free _ =>
      simp only [perform, Emission.alloc, Emission.free, Emission.onPool, Action.focus, Action.result_map,
        Action.state_map, Action.result_reportingFailure, Action.state_reportingFailure, same, and_self]
    | isFree _ | busy =>
      simp only [perform, Action.result_map, Action.state_map, Action.read_apply, Except.map, same, and_self]
    | reset => exact ⟨rfl, rfl⟩
    | _ => cases handles

/-! ## Labels -/

/-- The label that an event tells of as handed out. -/
def Event.handedOut? : Event → Option Label
  | newLabel label => some label
  | _ => none

/-- The labels that an action handed out, as it reported them. -/
def Outcome.handedOut {ε σ α : Type} (outcome : Outcome ε σ α) : List Label :=
  outcome.events.filterMap Event.handedOut?

/-- The label that a step gave as its answer. -/
def Outcome.answeredLabel? {ε σ : Type} (outcome : Outcome ε σ Answer) : Option Label :=
  match outcome.result with
  | .ok (.label label) => some label
  | _ => none

@[simp] theorem Outcome.handedOut_map {ε σ α β : Type} (f : α → β) (action : Action ε σ α) (before : σ) :
    ((f <$> action) before).handedOut = (action before).handedOut := by
  rw [handedOut, Action.events_map, handedOut]

theorem Outcome.answeredLabel?_done {ε σ α : Type} (action : Action ε σ α) (before : σ) :
    (((fun _ => Answer.done) <$> action) before).answeredLabel? = none := by
  cases result : (action before).result <;> simp [answeredLabel?, result, Except.map]

namespace Emission

variable {α β : Type}

/-- An action that hands out no label, even when it fails. -/
def Labelless (action : Emission α) : Prop := ∀ context, (action context).handedOut = []

theorem Labelless.bind {action : Emission α} {next : α → Emission β} (first : Labelless action)
    (second : ∀ value, Labelless (next value)) : Labelless (action >>= next) := by
  intro context
  have none := first context
  cases result : (action context).result with
  | ok value =>
    have others := second value (action context).state
    rw [Action.bind_eq_of_ok result]
    simp only [Outcome.handedOut] at none others ⊢
    rw [List.filterMap_append, none, others, List.nil_append]
  | error error =>
    rw [Action.bind_eq_of_error result]
    exact none

theorem append_labelless (text : String) : Labelless (append text) := by
  have tops : Labelless (onStack BufferStack.top) := by
    intro context
    cases levels : context.stack.levels <;>
      simp [onStack, Action.focus, BufferStack.top, levels, Outcome.handedOut]
  have buffers : Labelless (onStack (BufferStack.append text)) := by
    intro context
    cases levels : context.stack.levels with
    | nil => simp [onStack, Action.focus, BufferStack.append, levels, Outcome.handedOut]
    | cons level rest =>
      cases room : level.append text <;>
        simp [onStack, Action.focus, BufferStack.append, levels, room, Outcome.handedOut]
  refine Labelless.bind (fun _ => rfl) fun context => ?_
  split
  · exact buffers.bind fun _ => tops.bind fun _ _ => rfl
  · exact fun _ => rfl

theorem emit_labelless (operation : Operation) : Labelless (emit operation) :=
  Labelless.bind (fun _ => rfl) fun _ => append_labelless _

theorem push_labelless (construct : Construct) : Labelless (push construct) := by
  intro context
  have reports : context.stack.stateReport.filterMap Event.handedOut? = [] := by
    apply List.filterMap_eq_nil_iff.mpr
    intro event reported
    simp only [BufferStack.stateReport, List.mem_cons, List.mem_map] at reported
    obtain rfl | ⟨entry, -, rfl⟩ := reported <;> rfl
  by_cases full : context.stack.maxDepth ≤ context.stack.depth
  · simpa [push, onStack, Action.focus, Action.reportingFailure, BufferStack.push, full, Outcome.handedOut]
      using reports
  · simp [push, onStack, Action.focus, Action.reportingFailure, BufferStack.push, full, Outcome.handedOut,
      Event.handedOut?]

end Emission

theorem Context.labels_progression :
    Progression (fun _ _ => True) fun before after => after.labels = before.labels :=
  progression_of_aside (fun _ _ => rfl) fun _ _ => rfl

/-- The action hands out the next two labels and no other. Whether it succeeds does not matter. -/
structure Emission.TakesTwo {α : Type} (action : Emission α) (context : Context) : Prop where
  handedOut : (action context).handedOut = [⟨context.labels.issued⟩, ⟨context.labels.issued + 1⟩]
  labels : (action context).state.labels = ⟨context.labels.issued + 2⟩

namespace Emission

variable {α : Type}

/-- An action that begins with two labels and goes on without any. -/
theorem takesTwo_of_rest {next : Label → Label → Emission α}
    (advances : ∀ first second, (next first second).Advances fun before after => after.labels = before.labels)
    (labelless : ∀ first second, Labelless (next first second)) (context : Context) :
    TakesTwo (do let first ← newLabel; let second ← newLabel; next first second) context where
  handedOut := congrArg (_ :: _ :: ·)
    (labelless ⟨context.labels.issued⟩ ⟨context.labels.issued + 1⟩ context.numbered.numbered)
  labels := advances ⟨context.labels.issued⟩ ⟨context.labels.issued + 1⟩ context.numbered.numbered

theorem beginIf_takesTwo (cond : Reg) (context : Context) : TakesTwo (beginIf cond) context := by
  refine takesTwo_of_rest (fun elseLabel endLabel => ?_) (fun elseLabel endLabel => ?_) context
  · exact Context.labels_progression.bind (Context.labels_progression.emit _) fun _ => Context.labels_progression.push _
  · exact (emit_labelless _).bind fun _ => push_labelless _

theorem beginWhile_takesTwo (context : Context) : TakesTwo beginWhile context := by
  refine takesTwo_of_rest (fun entryLabel exitLabel => ?_) (fun entryLabel exitLabel => ?_) context
  · exact Context.labels_progression.bind (Context.labels_progression.push _) fun _ => Context.labels_progression.emit _
  · exact (push_labelless _).bind fun _ => emit_labelless _

end Emission

namespace Step

/-- What is seen of the labels in a step: those it handed out, and the one it answered. -/
theorem isolates_labels :
    Isolates handlesLabels Context.labels fun outcome => (outcome.handedOut, outcome.answeredLabel?) where
  aside := by
    intro step other
    exact Context.labels_progression.perform (fun _ _ _ => rfl) (by simp [other])
  alike := by
    intro step context other handles same
    have taken {action : Emission Unit} (takes : ∀ context, action.TakesTwo context) :
        let performed := (fun _ => Answer.done) <$> action
        ((performed context).handedOut, (performed context).answeredLabel?) =
            ((performed other).handedOut, (performed other).answeredLabel?) ∧
          (performed context).state.labels = (performed other).state.labels := by
      simp only [Outcome.handedOut_map, Outcome.answeredLabel?_done, Action.state_map, (takes _).handedOut,
        (takes _).labels, same, and_self]
    cases step with
    | label =>
      simp only [perform, Outcome.handedOut, Outcome.answeredLabel?, Action.events_map, Action.result_map,
        Action.state_map, Emission.newLabel, Except.map, same, and_self]
    | beginIf cond => exact taken (Emission.beginIf_takesTwo cond)
    | beginWhile => exact taken Emission.beginWhile_takesTwo
    | reset => exact ⟨rfl, rfl⟩
    | _ => cases handles

def isReset : Step → Bool
  | reset => true
  | _ => false

/-- Whether a step asks for a label and nothing else. -/
def asksLabel : Step → Bool
  | label => true
  | _ => false

/-- Whether a step begins a construct, which needs two labels. -/
def beginsConstruct : Step → Bool
  | beginIf _ | beginWhile => true
  | _ => false

/-- Labels are used up by the steps that need them, failed ones included, and by no others. -/
theorem issued_perform (step : Step) (context : Context) :
    (step.perform context).state.labels.issued =
      if step.isReset then 0
      else context.labels.issued + ((if step.asksLabel then 1 else 0) + 2 * if step.beginsConstruct then 1 else 0) := by
  cases step with
  | label | reset => rfl
  | beginIf cond =>
    rw [perform, Action.state_map, (Emission.beginIf_takesTwo cond context).labels]
    rfl
  | beginWhile =>
    rw [perform, Action.state_map, (Emission.beginWhile_takesTwo context).labels]
    rfl
  | _ => exact congrArg LabelSupply.issued (isolates_labels.aside rfl context)

end Step

/-- The labels that the steps of a session use up since the last reset: one for each that is asked for, two for each
construct that is begun. -/
def labelsUsed (steps : List Step) : Nat :=
  let recent := steps.rtakeWhile fun step => !step.isReset
  recent.countP Step.asksLabel + 2 * recent.countP Step.beginsConstruct

theorem Context.issued_after_start (options : Options) (stream : Stream) (steps : List Step) :
    ((Context.start options stream).after steps).labels.issued = labelsUsed steps := by
  induction steps using List.reverseRecOn with
  | nil => rfl
  | append_singleton earlier step ih =>
    rw [after_append, after, after, step.issued_perform, ih]
    simp only [labelsUsed, List.rtakeWhile_concat]
    cases isReset : step.isReset with
    | true => simp
    | false =>
      simp only [Bool.not_false, if_true, Bool.false_eq_true, if_false, List.countP_append, List.countP_singleton]
      omega

/-! ## Two sessions -/

/-- In any two sessions on fresh contexts, with whatever options and streams, the same register steps get the same
answers and leave the same registers, and the same label steps hand out the same labels. The other steps may differ, and
any step may fail in one of the sessions only. -/
theorem session_supplies_independent (options otherOptions : Options) (stream otherStream : Stream)
    (steps others : List Step) :
    let context := Context.start options stream
    let other := Context.start otherOptions otherStream
    (steps.filter Step.handlesRegisters = others.filter Step.handlesRegisters →
      (outcomesOf Step.handlesRegisters steps context).map Outcome.result =
          (outcomesOf Step.handlesRegisters others other).map Outcome.result ∧
        (context.after steps).pool = (other.after others).pool) ∧
    (steps.filter Step.handlesLabels = others.filter Step.handlesLabels →
      (outcomesOf Step.handlesLabels steps context).map Outcome.handedOut =
          (outcomesOf Step.handlesLabels others other).map Outcome.handedOut ∧
        (outcomesOf Step.handlesLabels steps context).map Outcome.answeredLabel? =
          (outcomesOf Step.handlesLabels others other).map Outcome.answeredLabel? ∧
        (context.after steps).labels = (other.after others).labels) ∧
    (context.after steps).labels.issued = labelsUsed steps := by
  intro context other
  refine ⟨fun same => Step.isolates_registers.together same rfl, ?_, Context.issued_after_start options stream steps⟩
  intro same
  have fresh : context.labels = other.labels := rfl
  obtain ⟨seen, labels⟩ := Step.isolates_labels.together same fresh
  have handedOut := congrArg (List.map Prod.fst) seen
  have answered := congrArg (List.map Prod.snd) seen
  simp only [List.map_map] at handedOut answered
  exact ⟨handedOut, answered, labels⟩

/-- Where no level can be open, neither construct below can be begun. -/
def flatSteps : List Step := [.alloc, .beginIf .t0, .alloc, .label, .free .t0, .beginWhile, .endWhile, .alloc]

/-- The same requests for registers and labels as in `flatSteps`, among steps that all succeed. -/
def nestedSteps : List Step :=
  [.prolog, .alloc, .beginIf .t0, .alloc, .beginElse, .label, .endIf, .free .t0, .beginWhile, .append "\tnop\n", .alloc]

theorem session_supplies_independent_flatSteps :
    (session flatSteps (.start { maxDepth := 0 } {})).map (·.result.isOk) =
        [true, false, true, true, true, false, false, true] ∧
      (session nestedSteps (.start {} {})).all (·.result.isOk) = true ∧
      (outcomesOf Step.handlesLabels flatSteps (.start { maxDepth := 0 } {})).map Outcome.handedOut =
        (outcomesOf Step.handlesLabels nestedSteps (.start {} {})).map Outcome.handedOut ∧
      ((Context.start { maxDepth := 0 } {}).after flatSteps).pool =
        ((Context.start {} {}).after nestedSteps).pool ∧
      ((Context.start { maxDepth := 0 } {}).after flatSteps).labels.issued = 5 := by
  have holds := session_supplies_independent { maxDepth := 0 } {} {} {} flatSteps nestedSteps
  exact ⟨by decide +kernel, by decide +kernel, (holds.2.1 rfl).1, (holds.1 rfl).2, holds.2.2⟩

end MipsBackend
