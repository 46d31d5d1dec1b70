import MipsBackend.Proofs.TextConservation

/-! # A stack in order

What a stack promises about itself holds whatever is done with it, and whatever of it is refused.

* `StackStep`, `BufferStack.after`: everything that can be done with a stack, one step after the other.
* `BufferStack.Regular`: no more levels than allowed, all of one capacity and none over it, and empty spare buffers.
* `BufferStack.regular_after`, `Context.Attainable.regular`: so it is on a stack that is used by itself, and in a
  context, however the stream behaves.
-/

namespace MipsBackend

/-! ## Using a stack -/

inductive StackStep
  | push (construct : Construct)
  | pop
  /-- The innermost level is handed out, so its text and its construct can be changed. -/
  | append (text : String)
  | takeText
  | setConstruct (construct : Construct)
  | merge (count : Nat)
  | recycle (buffer : String)
  | clear

def StackStep.perform : StackStep → Action EmitError BufferStack Unit
  | push construct => BufferStack.push construct
  | pop => (fun _ => ()) <$> BufferStack.pop
  | append text => BufferStack.append text
  | takeText => (fun _ => ()) <$> BufferStack.takeText
  | setConstruct construct => BufferStack.setConstruct construct
  | merge count => BufferStack.merge count
  | recycle buffer => Action.update (BufferStack.recycle buffer)
  | clear => Action.update BufferStack.clear

namespace BufferStack

/-- A stack that was not used yet. -/
def start (maxDepth bufferCapacity : Nat) : BufferStack := { maxDepth, bufferCapacity }

/-- What is left of a stack when steps were performed, whether they succeeded or failed. -/
def after (stack : BufferStack) : List StackStep → BufferStack
  | [] => stack
  | step :: rest => (step.perform stack).state.after rest

/-- An order that also lets the innermost level change is followed by everything that is done with a stack. -/
theorem Progression.after {Later : BufferStack → BufferStack → Prop} (progression : Progression Later)
    (takeText : BufferStack.takeText.Advances Later)
    (setConstruct : ∀ construct, (BufferStack.setConstruct construct).Advances Later)
    (stack : BufferStack) (steps : List StackStep) : Later stack (stack.after steps) := by
  have performs (step : StackStep) : step.perform.Advances Later := by
    cases step with
    | push construct => exact progression.push construct
    | pop => exact progression.pop.map
    | append text => exact progression.append text
    | takeText => exact takeText.map
    | setConstruct construct => exact setConstruct construct
    | merge count => exact progression.merge count
    | recycle buffer => exact progression.recycle buffer
    | clear => exact progression.clear
  induction steps generalizing stack with
  | nil => exact progression.refl stack
  | cons step rest ih => exact progression.trans (performs step stack) (ih _)

theorem bounds_after (stack : BufferStack) (steps : List StackStep) : (stack.after steps).bounds = stack.bounds := by
  refine bounds_progression.after ?_ (fun construct => ?_) stack steps
  · intro stack
    cases levels : stack.levels <;> simp [takeText, levels, bounds]
  · intro stack
    cases levels : stack.levels <;> simp [setConstruct, levels, bounds]

/-! ## The invariant -/

/-- What holds of a stack at all times. -/
structure Regular (stack : BufferStack) : Prop where
  depth_le : stack.depth ≤ stack.maxDepth
  uniform : stack.Uniform
  fits : ∀ level ∈ stack.levels, level.size ≤ level.capacity
  emptied : ∀ buffer ∈ stack.spare, buffer = ""

namespace Regular

variable {stack : BufferStack} {level : Level} {rest : List Level}

theorem start (maxDepth bufferCapacity : Nat) : (BufferStack.start maxDepth bufferCapacity).Regular where
  depth_le := Nat.zero_le maxDepth
  uniform := by simp [BufferStack.start, Uniform]
  fits := by simp [BufferStack.start]
  emptied := by simp [BufferStack.start]

theorem popped (regular : stack.Regular) (levels : stack.levels = level :: rest) :
    { stack with levels := rest }.Regular where
  depth_le := by
    have within := regular.depth_le
    simp only [depth, levels, List.length_cons] at within ⊢
    omega
  uniform other isOpen := regular.uniform other (by simp [levels, isOpen])
  fits other isOpen := regular.fits other (by simp [levels, isOpen])
  emptied := regular.emptied

theorem pushed (regular : stack.Regular) (room : stack.depth < stack.maxDepth) (construct : Construct) :
    Regular
      { stack with
        levels := ⟨construct, "", stack.bufferCapacity⟩ :: stack.levels
        spare := stack.spare.tail } where
  depth_le := room
  uniform := by
    have uniform := regular.uniform
    simpa [Uniform] using uniform
  fits := by
    have fits := regular.fits
    simpa [Level.size] using fits
  emptied buffer isSpare := regular.emptied buffer (List.mem_of_mem_tail isSpare)

/-- The innermost level may change as long as it keeps its capacity and stays within it. -/
theorem replaced (regular : stack.Regular) (levels : stack.levels = level :: rest) {other : Level}
    (capacity : other.capacity = level.capacity) (fits : other.size ≤ level.capacity) :
    { stack with levels := other :: rest }.Regular where
  depth_le := by
    have within := regular.depth_le
    simpa [depth, levels] using within
  uniform := by
    have uniform := regular.uniform
    simp only [Uniform, levels, List.forall_mem_cons] at uniform ⊢
    exact ⟨capacity.trans uniform.1, uniform.2⟩
  fits := by
    have others := regular.fits
    simp only [levels, List.forall_mem_cons] at others ⊢
    exact ⟨capacity ▸ fits, others.2⟩
  emptied := regular.emptied

theorem recycle (regular : stack.Regular) (buffer : String) : (stack.recycle buffer).Regular where
  depth_le := regular.depth_le
  uniform := regular.uniform
  fits := regular.fits
  emptied := by
    have others := regular.emptied
    simpa [BufferStack.recycle, MipsBackend.emptied] using others

theorem clear (regular : stack.Regular) : stack.clear.Regular := by
  have recycled (gone : List Level) {left : BufferStack} (regular : left.Regular) :
      (gone.foldl (fun left level => left.recycle level.text) left).Regular := by
    induction gone generalizing left with
    | nil => exact regular
    | cons level rest ih => exact ih (regular.recycle level.text)
  exact recycled stack.levels ⟨Nat.zero_le _, by simp [Uniform], by simp, regular.emptied⟩

end Regular

/-- Every step on a regular stack leaves a regular one, a failed step included. -/
theorem regular_progression : Progression fun before after => before.Regular → after.Regular where
  refl _ := id
  trans earlier later := later ∘ earlier
  push construct stack regular := by
    obtain ⟨_, after, yields⟩ | ⟨error, after, stops⟩ := (push construct).yields_or_stops stack
    · obtain ⟨room, rfl⟩ := push_yields_iff.mp yields
      rw [yields.2]
      exact regular.pushed room construct
    · obtain ⟨-, -, rfl⟩ := push_stops_iff.mp stops
      rwa [stops.2]
  pop stack regular := by
    cases levels : stack.levels with
    | nil => simpa [pop, levels] using regular
    | cons level rest => simpa [pop, levels] using regular.popped levels
  append text stack regular := by
    obtain ⟨_, after, yields⟩ | ⟨error, after, stops⟩ := (append text).yields_or_stops stack
    · obtain ⟨level, rest, levels, room, rfl⟩ := append_yields_iff.mp yields
      have within := regular.fits level (by simp [levels])
      rw [yields.2]
      refine regular.replaced levels rfl ?_
      rw [Level.size_extend]
      unfold Level.remaining at room
      omega
    · obtain ⟨rfl, -⟩ := append_stops_iff.mp stops
      rwa [stops.2]
  recycle buffer _ regular := regular.recycle buffer
  clear _ regular := regular.clear

theorem regular_after (maxDepth bufferCapacity : Nat) (steps : List StackStep) :
    ((start maxDepth bufferCapacity).after steps).Regular := by
  refine regular_progression.after ?_ (fun construct => ?_) _ steps (.start maxDepth bufferCapacity)
  · intro stack regular
    cases levels : stack.levels with
    | nil => simpa [takeText, levels] using regular
    | cons level rest =>
      have taken : { stack with levels := { level with text := "" } :: rest }.Regular :=
        regular.replaced levels rfl (Nat.zero_le level.capacity)
      simpa [takeText, levels] using taken
  · intro stack regular
    cases levels : stack.levels with
    | nil => simpa [setConstruct, levels] using regular
    | cons level rest =>
      have changed : { stack with levels := { level with construct } :: rest }.Regular :=
        regular.replaced levels rfl (regular.fits level (by simp [levels]))
      simpa [setConstruct, levels] using changed

end BufferStack

/-! ## Stacks in contexts -/

theorem Context.regular_progression :
    Progression (fun before after => before.Regular → after.Regular) fun before after =>
      before.stack.Regular → after.stack.Regular where
  stack := BufferStack.regular_progression
  refl _ := id
  trans earlier later := later ∘ earlier
  within _ _ kept := kept
  write _ _ := id

/-- A context that use of a fresh one can lead to, as far as levels are used by what they offer: whoever holds the
innermost level can give it any construct and any text that fits, but not another capacity. -/
inductive Context.Attainable (options : Options) (stream : Stream) : Context → Prop
  | start : Attainable options stream (Context.start options stream)
  | step {context : Context} (step : Step) :
      Attainable options stream context → Attainable options stream (step.perform context).state
  | level {context : Context} {level : Level} {rest : List Level} (construct : Construct) (text : String) :
      Attainable options stream context → context.stack.levels = level :: rest →
      text.utf8ByteSize ≤ level.capacity →
      Attainable options stream
        { context with stack := { context.stack with levels := ⟨construct, text, level.capacity⟩ :: rest } }
  /-- While no level is open, the holder of the stream may write any bytes. -/
  | bytes {context : Context} (more : ByteArray) :
      Attainable options stream context → context.stack.levels = [] →
      Attainable options stream
        { context with stream := { context.stream with written := context.stream.written ++ more } }

namespace Context.Attainable

variable {options : Options} {stream : Stream} {context : Context}

theorem after (attainable : context.Attainable options stream) (steps : List Step) :
    (context.after steps).Attainable options stream := by
  induction steps generalizing context with
  | nil => exact attainable
  | cons step rest ih => exact ih (attainable.step step)

theorem reachable (attainable : context.Attainable options stream) : context.Reachable options stream := by
  induction attainable with
  | start => exact .start
  | step step _ ih => exact .step step ih
  | level construct text _ levels _ ih => exact .level _ ih levels
  | bytes more _ unbuffered ih => exact .bytes more ih unbuffered

theorem regular (attainable : context.Attainable options stream) : context.stack.Regular := by
  induction attainable with
  | start => exact .start options.maxDepth options.bufferCapacity
  | step step _ ih => exact regular_progression.perform (fun _ _ _ => id) (fun _ _ _ => id) _ ih
  | level construct text _ levels fits ih => exact ih.replaced levels rfl fits
  | bytes more _ _ ih => exact ih

end Context.Attainable

end MipsBackend
