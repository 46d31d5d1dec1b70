import MipsBackend.Proofs.Progression

/-! # Reachable contexts

`Context.Reachable` covers whatever a user can make of a fresh context: any steps in any order, failed ones
included, and anything done to the level or the stream that text goes to, which is handed out.

No step changes a bound (`Step.perform_preserves`), so a reachable context has the bounds it began with.
-/

namespace MipsBackend

/-! ## Bounds of the stack -/

namespace BufferStack

def bounds (stack : BufferStack) : Nat × Nat := (stack.maxDepth, stack.bufferCapacity)

theorem pop_preserves : pop.Preserves bounds := by
  intro stack
  cases levels : stack.levels <;> simp [pop, levels, bounds]

theorem append_preserves (text : String) : (append text).Preserves bounds := by
  intro stack
  cases levels : stack.levels with
  | nil => simp [append, levels]
  | cons level rest => cases fits : level.append text <;> simp [append, levels, fits, bounds]

theorem push_preserves (construct : Construct) : (push construct).Preserves bounds := by
  intro stack
  by_cases full : stack.maxDepth ≤ stack.depth <;> simp [push, full, bounds]

/-- Clearing drops the levels and changes nothing else but the buffers kept for later. -/
theorem clear_eq (stack : BufferStack) : ∃ spare, stack.clear = { stack with levels := [], spare } := by
  have recycled (gone : List Level) (start : BufferStack) :
      ∃ spare, gone.foldl (fun left level => left.recycle level.text) start = { start with spare } := by
    induction gone generalizing start with
    | nil => exact ⟨start.spare, rfl⟩
    | cons level rest ih => exact ih _
  exact recycled stack.levels { stack with levels := [] }

@[simp] theorem bounds_clear (stack : BufferStack) : stack.clear.bounds = stack.bounds := by
  obtain ⟨spare, cleared⟩ := stack.clear_eq
  rw [cleared]
  rfl

@[simp] theorem levels_clear (stack : BufferStack) : stack.clear.levels = [] := by
  obtain ⟨spare, cleared⟩ := stack.clear_eq
  rw [cleared]

theorem bounds_progression : Progression fun before after => after.bounds = before.bounds where
  refl _ := rfl
  trans earlier later := later.trans earlier
  push := push_preserves
  pop := pop_preserves
  append := append_preserves
  recycle _ _ := rfl
  clear := bounds_clear

end BufferStack

/-! ## Bounds of a context -/

/-- What a context is set up with and keeps: its options, the bounds of its stack, the faults of its stream. -/
def Context.bounds (context : Context) : Options × (Nat × Nat) × Option Limit × Option Fault :=
  (context.options, context.stack.bounds, context.stream.limit, context.stream.flushFault)

theorem Stream.faults_write (stream : Stream) (text : String) :
    (stream.write text).2.limit = stream.limit ∧ (stream.write text).2.flushFault = stream.flushFault := by
  -- Even a write that is cut short leaves the limit and the flush as they were.
  cases limit : stream.limit with
  | none => simp [write, limit]
  | some limit =>
    simp only [write, *]
    split <;> exact ⟨rfl, rfl⟩

theorem Context.bounds_progression :
    Progression (fun before after => after.bounds = before.bounds) fun before after =>
      after.bounds = before.bounds where
  stack := BufferStack.bounds_progression
  refl _ := rfl
  trans earlier later := later.trans earlier
  within context stack kept := by simp only [bounds, kept]
  write text context := by simp [Emission.write, bounds, context.stream.faults_write text]

theorem Step.perform_preserves (step : Step) : step.perform.Preserves Context.bounds :=
  Context.bounds_progression.perform (fun _ _ _ => rfl) fun _ _ _ => rfl

/-! ## Whatever a user can do -/

/-- A context that use of a fresh one can lead to. -/
inductive Context.Reachable (options : Options) (stream : Stream) : Context → Prop
  | start : Reachable options stream (Context.start options stream)
  | step {context : Context} (step : Step) :
      Reachable options stream context → Reachable options stream (step.perform context).state
  /-- While a level is open, its holder may put any other in its place. -/
  | level {context : Context} {level : Level} {rest : List Level} (other : Level) :
      Reachable options stream context → context.stack.levels = level :: rest →
      Reachable options stream { context with stack := { context.stack with levels := other :: rest } }
  /-- While no level is open, the holder of the stream may write any bytes. -/
  | bytes {context : Context} (more : ByteArray) :
      Reachable options stream context → context.stack.levels = [] →
      Reachable options stream
        { context with stream := { context.stream with written := context.stream.written ++ more } }

theorem Context.Reachable.bounds_eq {options : Options} {stream : Stream} {context : Context}
    (reachable : context.Reachable options stream) :
    context.bounds = (options, (options.maxDepth, options.bufferCapacity), stream.limit, stream.flushFault) := by
  induction reachable with
  | start => rfl
  | step step _ ih => exact (step.perform_preserves _).trans ih
  | level other _ _ ih => exact ih
  | bytes more _ _ ih => exact ih

end MipsBackend
