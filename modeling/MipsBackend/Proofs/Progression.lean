import MipsBackend.Proofs.Accounts

/-! # Progress of a context

Much of what holds throughout code generation says that every step leads from a context to a *later* one, where
later may mean that the bounds are the same, that no register was handed out, or that the stack is still in order.
Such an order is an account that leaves errors and events aside.

* `BufferStack.Progression`: an order that the steps on a stack follow. Merges are made of these, so they follow it.
* `Context.Progression`: an order on contexts that comes of one on their stacks.
* `Context.Progression.perform`: every step of a session follows it. A step that handles registers or labels follows
  it if the order lets these change.
-/

namespace MipsBackend

/-! ## Steps on a stack -/

/-- An order on stacks that the steps on a stack follow, whether they succeed or fail. -/
structure BufferStack.Progression (Later : BufferStack → BufferStack → Prop) : Prop where
  refl (stack : BufferStack) : Later stack stack
  trans {first second third : BufferStack} : Later first second → Later second third → Later first third
  push (construct : Construct) : (BufferStack.push construct).Advances Later
  pop : BufferStack.pop.Advances Later
  append (text : String) : (BufferStack.append text).Advances Later
  recycle (buffer : String) (stack : BufferStack) : Later stack (stack.recycle buffer)
  clear (stack : BufferStack) : Later stack stack.clear

namespace BufferStack.Progression

variable {Later : BufferStack → BufferStack → Prop}

theorem top (progression : Progression Later) : BufferStack.top.Advances Later := by
  intro stack
  have still : (BufferStack.top stack).state = stack := by
    cases levels : stack.levels <;> simp [BufferStack.top, levels]
  rw [still]
  exact progression.refl stack

theorem mergeInnermost (progression : Progression Later) : BufferStack.mergeInnermost.Advances Later := by
  refine progression.pop.bind progression.trans fun inner => ?_
  refine (progression.append inner.text).bind progression.trans fun _ => ?_
  refine progression.top.bind progression.trans fun outer => ?_
  exact Action.Advances.bind progression.trans progression.refl fun _ => progression.recycle inner.text

theorem mergeSteps (progression : Progression Later) (steps : Nat) :
    (BufferStack.mergeSteps steps).Advances Later := by
  induction steps with
  | zero => exact progression.refl
  | succ steps ih => exact progression.mergeInnermost.bind progression.trans fun _ => ih

theorem merge (progression : Progression Later) (count : Nat) : (BufferStack.merge count).Advances Later := by
  refine Action.Advances.bind progression.trans progression.refl fun stack => ?_
  split
  · exact progression.refl
  · split
    · exact progression.refl
    · refine (progression.mergeSteps (count - 1)).bind progression.trans fun _ => ?_
      exact Action.Advances.bind progression.trans progression.refl fun _ => progression.refl

end BufferStack.Progression

/-! ## Steps on a context -/

/-- An order on contexts that the steps on a context follow as far as they write, buffer and handle levels. -/
structure Context.Progression (Inner : BufferStack → BufferStack → Prop) (Later : Context → Context → Prop) :
    Prop where
  stack : BufferStack.Progression Inner
  refl (context : Context) : Later context context
  trans {first second third : Context} : Later first second → Later second third → Later first third
  /-- A later stack makes a later context. -/
  within (context : Context) {stack : BufferStack} : Inner context.stack stack → Later context { context with stack }
  write (text : String) : (Emission.write text).Advances Later

namespace Context.Progression

variable {Inner : BufferStack → BufferStack → Prop} {Later : Context → Context → Prop} {α β : Type}

theorem bind (progression : Progression Inner Later) {action : Emission α} {next : α → Emission β}
    (first : action.Advances Later) (second : ∀ value, (next value).Advances Later) :
    (action >>= next).Advances Later :=
  first.bind progression.trans second

theorem onStack (progression : Progression Inner Later) {action : Action EmitError BufferStack α}
    (inside : action.Advances Inner) : (Emission.onStack action).Advances Later :=
  fun context => progression.within context (inside context.stack)

theorem append (progression : Progression Inner Later) (text : String) : (Emission.append text).Advances Later := by
  refine progression.bind progression.refl fun context => ?_
  split
  · refine progression.bind (progression.onStack (progression.stack.append text)) fun _ => ?_
    exact progression.bind (progression.onStack progression.stack.top) fun _ => progression.refl
  · exact progression.write text

theorem push (progression : Progression Inner Later) (construct : Construct) :
    (Emission.push construct).Advances Later :=
  (progression.onStack (progression.stack.push construct)).reportingFailure

theorem merge (progression : Progression Inner Later) (count : Nat) : (Emission.merge count).Advances Later :=
  (progression.onStack (progression.stack.merge count)).reportingFailure

theorem close (progression : Progression Inner Later) : Emission.close.Advances Later := by
  have check (stack : BufferStack) : (Action.ofExcept (Emission.closable stack) : Emission Unit).Advances Later :=
    progression.refl
  refine progression.bind progression.refl fun context => ?_
  refine progression.bind (check context.stack).reportingFailure fun _ => ?_
  refine progression.bind (progression.onStack progression.stack.pop) fun level => ?_
  refine progression.bind (progression.append level.text) fun _ => ?_
  refine progression.bind progression.refl fun outside => ?_
  refine progression.bind progression.refl fun _ => ?_
  exact progression.bind (progression.onStack (progression.stack.recycle level.text)) fun _ => progression.refl

theorem release (progression : Progression Inner Later) : Emission.release.Advances Later := by
  refine progression.bind (progression.onStack progression.stack.clear) fun _ => ?_
  refine progression.bind progression.refl fun context => ?_
  exact progression.bind progression.refl fun _ => progression.refl

/-! ### Steps made of these -/

/-- The order as an account of emissions, which errors and events do not matter to. -/
theorem account (progression : Progression Inner Later) :
    EmissionAccount fun before _ _ after => Later before after where
  still context _ := progression.refl context
  trans := progression.trans
  append := progression.append
  push := progression.push
  merge := progression.merge
  close := progression.close
  literals _ := progression.refl

theorem emit (progression : Progression Inner Later) (operation : Operation) :
    (Emission.emit operation).Advances Later :=
  progression.account.emit operation

end Context.Progression

/-! ## Steps of a session -/

theorem Context.Progression.perform {Inner : BufferStack → BufferStack → Prop} {Later : Context → Context → Prop}
    (progression : Progression Inner Later) {step : Step}
    (registers : step.handlesRegisters = true → ∀ context pool, Later context { context with pool })
    (labels : step.handlesLabels = true → ∀ context labels, Later context { context with labels }) :
    step.perform.Advances Later := by
  apply progression.account.perform
  · rintro rfl
    exact Action.Advances.reportingFailure fun context => registers rfl context _
  · rintro reg rfl
    exact fun context => registers rfl context _
  · intro handles context
    exact labels handles context _
  · rintro (rfl | rfl)
    · have resets : (Action.update Context.reset : Emission Unit).Advances Later := by
        intro context
        have cleared := progression.within context (progression.stack.clear context.stack)
        have freed := progression.trans cleared (registers rfl _ .fresh)
        exact progression.trans freed (labels rfl _ {})
      exact resets.map
    · exact progression.release.map

end MipsBackend
