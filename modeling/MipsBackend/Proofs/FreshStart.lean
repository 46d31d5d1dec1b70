import MipsBackend.Proofs.Resemblance
import MipsBackend.Proofs.TextConservation

/-! # Starting afresh

A context that is reset keeps its stream and the buffers of the levels it had, and nothing else of what was done
with it. Neither of the two can be told from outside: the stream only grows at its end, and a buffer is emptied
before it serves again. So a session after a reset looks like one on a new context.

* `Observation`: what can be seen of one step of a session.
* `Step.observe_of_resembles`: a step looks the same in contexts that differ in their stream and spare buffers.
* `observations_after_reset`: a session after a reset looks like a session on a new context.
-/

namespace MipsBackend

/-- What can be seen of a step: its result, the bytes it wrote to the stream, and the registers, labels and levels
it left. -/
structure Observation where
  result : Except EmitError Answer
  added : ByteArray
  pool : RegisterPool
  labels : LabelSupply
  levels : List Level

/-- The answer of a step as far as it depends on the step and the program. The number of bytes that a context tells
when it is given up counts everything on its stream. -/
def Step.shown : Step → Answer → Answer
  | release, _ => .done
  | _, answer => answer

def Step.observe (step : Step) (before : Context) (outcome : Outcome EmitError Context Answer) : Observation where
  result := outcome.result.map step.shown
  added := outcome.state.stream.written.extract before.stream.written.size outcome.state.stream.written.size
  pool := outcome.state.pool
  labels := outcome.state.labels
  levels := outcome.state.stack.levels

/-- What can be seen of a session, step by step. Each step begins with what the one before it left. -/
def observations (steps : List Step) (context : Context) : List Observation :=
  let outcomes := session steps context
  List.zipWith (fun step seen => step.observe seen.1 seen.2) steps
    ((context :: outcomes.map Outcome.state).zip outcomes)

theorem observations_cons (step : Step) (rest : List Step) (context : Context) :
    observations (step :: rest) context =
      step.observe context (step.perform context) :: observations rest (step.perform context).state :=
  rfl

theorem observations_append (before after : List Step) (context : Context) :
    observations (before ++ after) context =
      observations before context ++ observations after (context.after before) := by
  induction before generalizing context with
  | nil => rfl
  | cons step rest ih => simp only [List.cons_append, observations_cons, Context.after, ih]

theorem length_observations (steps : List Step) (context : Context) :
    (observations steps context).length = steps.length := by
  induction steps generalizing context with
  | nil => rfl
  | cons step rest ih => simp only [observations_cons, List.length_cons, ih]

theorem Context.bounds_after (context : Context) (steps : List Step) :
    (context.after steps).bounds = context.bounds := by
  induction steps generalizing context with
  | nil => rfl
  | cons step rest ih => exact (ih _).trans (step.perform_preserves context)

/-! ## Contexts that look alike -/

section Resembles

variable {stream : Stream} {context other : Context}

/-- Without a limit neither run can stop alone. -/
theorem Emission.alike_of_reliable {α : Type} {emission : Emission α} (reliable : stream.IsReliable)
    (respects : (besideReliable stream).Respects emission) (resembles : Context.Resembles stream context other) :
    (emission context).result = (emission other).result ∧
      Context.Resembles stream (emission context).state (emission other).state := by
  cases respects.agrees resembles with
  | alike same related => exact ⟨same, related⟩
  | lapsed _ lapse =>
    obtain ⟨fault, -, size, limited, -⟩ := lapse
    rw [reliable.1] at limited
    cases limited
  | excused _ never => exact never.elim

/-- Giving up the levels leaves nothing but spare buffers, which may differ. -/
theorem Context.Resembles.cleared (resembles : Context.Resembles stream context other) :
    Context.Resembles stream { context with stack := context.stack.clear }
      { other with stack := other.stack.clear } := by
  refine { resembles with levels := ?_, bounds := ?_ }
  · simp only [BufferStack.levels_clear]
  · simp only [BufferStack.bounds_clear, resembles.bounds]

theorem Context.Resembles.reset (resembles : Context.Resembles stream context other) :
    Context.Resembles stream context.reset other.reset :=
  { resembles.cleared with pool_eq := rfl, labels_eq := rfl }

/-- Every step but the last one of a session respects the comparison. -/
theorem Step.respects_perform {step : Step} (goesOn : step ≠ .release) :
    (besideReliable stream).Respects step.perform := by
  have looks (f : Context → Answer)
      (same : ∀ {context other}, Context.Resembles stream context other → f context = f other) :
      (besideReliable stream).Respects (f <$> Action.read) :=
    Comparison.respects_of_still (fun _ => rfl) fun resembles => congrArg Except.ok (same resembles)
  cases step with
  | options =>
    refine looks _ fun resembles => ?_
    rw [resembles.options_eq, (Prod.mk.inj resembles.bounds).1]
  | top => exact (Emission.respects_onStack BufferStack.respects_top).map
  | enclosing =>
    refine looks _ fun resembles => ?_
    rw [BufferStack.enclosing?, BufferStack.enclosing?, resembles.levels]
  | reset =>
    have resets : (besideReliable stream).Respects (Action.update Context.reset) :=
      Comparison.respects_update (fun context => (besideReliable stream).later_refl context) Context.Resembles.reset
    exact resets.map
  | release => exact absurd rfl goesOn
  | _ => exact (resemblance stream).perform rfl

/-- Giving up a context succeeds unless flushing its stream fails. -/
theorem Step.perform_release (faultless : context.stream.flushFault = none) :
    (release.perform context).result.map release.shown = .ok .done ∧
      (release.perform context).state = { context with stack := context.stack.clear } := by
  obtain ⟨size, last, yields⟩ := Emission.release_of_faultless faultless
  have performs : release.perform.Yields context (.number size) last :=
    Action.yields_map_iff.mpr ⟨size, yields, rfl⟩
  rw [performs.1, performs.2, ← yields.2, Emission.state_release]
  exact ⟨rfl, rfl⟩

theorem Step.perform_of_resembles (step : Step) (reliable : stream.IsReliable)
    (resembles : Context.Resembles stream context other) :
    (step.perform context).result.map step.shown = (step.perform other).result.map step.shown ∧
      Context.Resembles stream (step.perform context).state (step.perform other).state := by
  by_cases release : step = .release
  · subst release
    have faultless : context.stream.flushFault = none := by rw [resembles.stream_eq, reliable.2]
    obtain ⟨result, state⟩ := perform_release faultless
    obtain ⟨otherResult, otherState⟩ := perform_release resembles.reliable.2
    rw [result, otherResult, state, otherState]
    exact ⟨rfl, resembles.cleared⟩
  · obtain ⟨same, related⟩ := Emission.alike_of_reliable reliable (respects_perform release) resembles
    rw [same]
    exact ⟨rfl, related⟩

theorem byteArray_extract_append_right (first second : ByteArray) (start stop : Nat) :
    (first ++ second).extract (first.size + start) (first.size + stop) = second.extract start stop := by
  have nothing : first.extract (first.size + start) (first.size + stop) = ByteArray.empty := by
    apply ByteArray.ext
    simp
  rw [ByteArray.extract_append, nothing, ByteArray.empty_append, Nat.add_sub_cancel_left, Nat.add_sub_cancel_left]

theorem Step.observe_of_resembles (step : Step) (reliable : stream.IsReliable)
    (resembles : Context.Resembles stream context other) :
    step.observe context (step.perform context) = step.observe other (step.perform other) := by
  obtain ⟨same, left⟩ := step.perform_of_resembles reliable resembles
  have added :
      (step.perform context).state.stream.written.extract context.stream.written.size
          (step.perform context).state.stream.written.size =
        (step.perform other).state.stream.written.extract other.stream.written.size
          (step.perform other).state.stream.written.size := by
    rw [resembles.stream_eq, left.stream_eq]
    simp only [ByteArray.size_append, byteArray_extract_append_right]
  simp only [observe, same, added, left.pool_eq, left.labels_eq, left.levels]

theorem observations_of_resembles (steps : List Step) (reliable : stream.IsReliable)
    (resembles : Context.Resembles stream context other) : observations steps context = observations steps other := by
  induction steps generalizing context other with
  | nil => rfl
  | cons step rest ih =>
    rw [observations_cons, observations_cons, step.observe_of_resembles reliable resembles,
      ih (step.perform_of_resembles reliable resembles).2]

end Resembles

/-! ## Sessions after a reset -/

/-- After any steps, a reset leads to what a new context is, but for the stream and the spare buffers. -/
theorem Context.resembles_reset {options : Options} {context : Context}
    (bounds : context.bounds = (options, (options.maxDepth, options.bufferCapacity), none, none)) :
    Context.Resembles context.stream context.reset (.start options {}) := by
  simp only [Context.bounds, Prod.mk.injEq] at bounds
  obtain ⟨isOptions, stackBounds, limit, -⟩ := bounds
  exact
    { stream_eq := by simp [Context.reset, Context.start]
      reliable := ⟨rfl, rfl⟩
      room := by simp [limit]
      pool_eq := rfl
      labels_eq := rfl
      options_eq := isOptions
      levels := context.stack.levels_clear
      bounds := context.stack.bounds_clear.trans stackBounds }

/-- A session after a reset looks like a session on a new context, whatever was done before the reset. -/
theorem observations_after_reset (options : Options) {stream other : Stream} (reliable : stream.IsReliable)
    (otherReliable : other.IsReliable) (before after : List Step) :
    (observations (before ++ .reset :: after) (.start options stream)).drop (before.length + 1) =
      observations after (.start options other) := by
  have bounds : ((Context.start options stream).after before).bounds =
      (options, (options.maxDepth, options.bufferCapacity), none, none) := by
    rw [Context.bounds_after, ← reliable.1, ← reliable.2]
    rfl
  have room : ∀ bound ∈ other.limit, other.written.size ≤ bound.size := by simp [otherReliable.1]
  have still : ((Context.start options stream).after before).stream.IsReliable := by
    simp only [Context.bounds, Prod.mk.injEq] at bounds
    exact ⟨bounds.2.2.1, bounds.2.2.2⟩
  have whole : observations (before ++ .reset :: after) (.start options stream) =
      observations before (.start options stream) ++ Step.reset.observe _ _ ::
        observations after ((Context.start options stream).after before).reset :=
    observations_append before (.reset :: after) _
  have skipped := length_observations before (.start options stream)
  rw [whole, ← skipped, List.drop_length_add_append, List.drop_succ_cons, List.drop_zero]
  calc
    observations after ((Context.start options stream).after before).reset
    _ = observations after (.start options {}) := observations_of_resembles after still (Context.resembles_reset bounds)
    _ = observations after (.start options other) :=
      (observations_of_resembles after otherReliable (Context.resembles_start options room)).symm

/-- A failed step, a held register and two open levels before the reset do not show. Only the buffers are kept. -/
theorem observations_after_reset_of_open_levels :
    ((Context.start {} {}).after [.alloc, .beginIf .t0, .beginElse, .endWhile, .reset]).stack.spare = ["", ""] ∧
      (observations ([.alloc, .beginIf .t0, .beginElse, .endWhile] ++ .reset :: [.alloc, .beginWhile, .close, .release])
        (.start {} {})).drop 5 = observations [.alloc, .beginWhile, .close, .release] (.start {} {}) :=
  ⟨by decide +kernel,
    observations_after_reset {} ⟨rfl, rfl⟩ ⟨rfl, rfl⟩ [.alloc, .beginIf .t0, .beginElse, .endWhile]
      [.alloc, .beginWhile, .close, .release]⟩

end MipsBackend
