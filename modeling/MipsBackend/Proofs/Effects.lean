import MipsBackend.Control
import MipsBackend.Proofs.Outcome

/-! # Effects on a context

What each primitive step of code generation makes of a context, as a function of the context alone:

* `Context.appended`, `Context.opened`, `Context.merged`, `Context.closed`, `Context.numbered`.
* `Context.virtual`: the bytes on the stream followed by the texts of all levels, outermost first.
* `Context.outline`: the constructs of the open levels, innermost first.

The equivalences for `append`, `push`, `merge` and `close` say when a step succeeds and that it then
has its effect. Only the stream can make a step fail that has room, so the halves that promise
success ask for a stream without a limit.
-/

namespace MipsBackend

/-- Whether an error is about the limits that the options set. -/
def EmitError.isLimit : EmitError → Bool
  | stackOverflow _ | capacityExceeded _ _ => true
  | _ => false

/-- The texts of levels that stand innermost first, in program order. -/
def Level.joined : List Level → String
  | [] => ""
  | level :: outer => joined outer ++ level.text

namespace BufferStack

/-- The stack after the innermost level was merged into the level around it. -/
def absorbed (stack : BufferStack) : BufferStack :=
  match stack.levels with
  | inner :: outer :: rest =>
    { stack with levels := outer.extend inner.text :: rest, spare := "" :: stack.spare }
  | _ => stack

/-- The stack after `steps` merges of the innermost level. -/
def absorbedTimes : (steps : Nat) → BufferStack → BufferStack
  | 0, stack => stack
  | steps + 1, stack => absorbedTimes steps stack.absorbed

/-- Whether the innermost level has another one around it with room for its text. -/
def Absorbs (stack : BufferStack) : Prop :=
  match stack.levels with
  | inner :: outer :: _ => inner.size ≤ outer.remaining
  | _ => False

end BufferStack

namespace Context

/-- The bytes on the stream followed by the texts of all levels, outermost first. -/
def virtual (context : Context) : ByteArray :=
  context.stream.written ++ (Level.joined context.stack.levels).toUTF8

/-- The constructs of the open levels, innermost first. -/
def outline (context : Context) : List Construct := context.stack.levels.map Level.construct

/-- Whether a text has room where text goes now. The stream has no bounds of its own here. -/
def Fits (context : Context) (text : String) : Prop :=
  match context.stack.levels with
  | [] => True
  | level :: _ => text.utf8ByteSize ≤ level.remaining

/-- The context with a text added where text goes now. -/
def appended (context : Context) (text : String) : Context :=
  match context.stack.levels with
  | [] =>
    { context with stream := { context.stream with written := context.stream.written ++ text.toUTF8 } }
  | level :: rest => { context with stack := { context.stack with levels := level.extend text :: rest } }

/-- The context with a level opened for a construct. -/
def opened (context : Context) (construct : Construct) : Context :=
  { context with
    stack :=
      { context.stack with
        levels := ⟨construct, "", context.stack.bufferCapacity⟩ :: context.stack.levels
        spare := context.stack.spare.tail } }

/-- The context with the `count` innermost levels merged. -/
def merged (context : Context) (count : Nat) : Context :=
  { context with stack := context.stack.absorbedTimes (count - 1) }

/-- The context with the innermost level closed. -/
def closed (context : Context) : Context :=
  match context.stack.levels with
  | [level] =>
    { context with
      stream := { context.stream with written := context.stream.written ++ level.text.toUTF8 }
      stack := { context.stack with levels := [], spare := "" :: context.stack.spare } }
  | _ => { context with stack := context.stack.absorbed }

/-- Whether the innermost level exists and what encloses it has room for its text. -/
def Closable (context : Context) : Prop :=
  match context.stack.levels with
  | [_] => True
  | _ => context.stack.Absorbs

/-- The context after one more label was handed out. -/
def numbered (context : Context) : Context := { context with labels := ⟨context.labels.issued + 1⟩ }

end Context

/-! ## Texts of operations -/

@[simp] theorem Fragment.allText_nil (annotate : Bool) : Fragment.allText annotate [] = "" := rfl

theorem Fragment.allText_cons (annotate : Bool) (fragment : Fragment) (rest : List Fragment) :
    Fragment.allText annotate (fragment :: rest) = fragment.text annotate ++ Fragment.allText annotate rest := by
  simp [Fragment.allText, Fragment.allEmitted, Fragment.text, Inst.lines_append]

theorem Fragment.allText_append (annotate : Bool) (left right : List Fragment) :
    Fragment.allText annotate (left ++ right) =
      Fragment.allText annotate left ++ Fragment.allText annotate right := by
  simp [Fragment.allText, Fragment.allEmitted, Inst.lines_append]

/-- Text of operations emitted one after the other. -/
def Operation.allText (annotate : Bool) (operations : List Operation) : String :=
  Fragment.allText annotate (operations.map Operation.fragment)

@[simp] theorem Operation.allText_nil (annotate : Bool) : Operation.allText annotate [] = "" := rfl

@[simp] theorem Operation.allText_cons (annotate : Bool) (operation : Operation) (rest : List Operation) :
    Operation.allText annotate (operation :: rest) =
      operation.text annotate ++ Operation.allText annotate rest :=
  Fragment.allText_cons annotate operation.fragment _

theorem Operation.allText_append (annotate : Bool) (left right : List Operation) :
    Operation.allText annotate (left ++ right) =
      Operation.allText annotate left ++ Operation.allText annotate right := by
  rw [Operation.allText, List.map_append, Fragment.allText_append]
  rfl

/-! ## Merging on the stack -/

namespace BufferStack

theorem constructs_absorbed (stack : BufferStack) (deep : 2 ≤ stack.depth) :
    stack.absorbed.levels.map Level.construct = (stack.levels.map Level.construct).drop 1 := by
  unfold depth at deep
  unfold absorbed
  split
  next inner outer rest levels => simp [levels]
  next shallow =>
    match shape : stack.levels with
    | [] | [_] => simp [shape] at deep
    | inner :: outer :: rest => exact absurd shape (shallow inner outer rest)

@[simp] theorem joined_absorbed (stack : BufferStack) :
    Level.joined stack.absorbed.levels = Level.joined stack.levels := by
  unfold absorbed
  split
  next inner outer rest levels => simp [levels, Level.joined, String.append_assoc]
  next => rfl

theorem depth_absorbed (stack : BufferStack) (deep : 2 ≤ stack.depth) :
    stack.absorbed.depth = stack.depth - 1 := by
  have lengths := congrArg List.length (stack.constructs_absorbed deep)
  simpa [depth] using lengths

@[simp] theorem joined_absorbedTimes (steps : Nat) (stack : BufferStack) :
    Level.joined (stack.absorbedTimes steps).levels = Level.joined stack.levels := by
  induction steps generalizing stack with
  | zero => rfl
  | succ steps ih => simpa [absorbedTimes] using ih stack.absorbed

theorem constructs_absorbedTimes {steps : Nat} {stack : BufferStack} (deep : steps < stack.depth) :
    (stack.absorbedTimes steps).levels.map Level.construct =
      (stack.levels.map Level.construct).drop steps := by
  induction steps generalizing stack with
  | zero => rfl
  | succ steps ih =>
    -- One merge drops the innermost construct and leaves a stack that is one level lower.
    have once := stack.constructs_absorbed (by omega)
    have fewer := stack.depth_absorbed (by omega)
    rw [absorbedTimes, ih (by omega), once, List.drop_drop, Nat.add_comm]

/-! ## Steps on the stack -/

theorem top_yields_iff {stack after : BufferStack} {level : Level} :
    top.Yields stack level after ↔ (∃ rest, stack.levels = level :: rest) ∧ after = stack := by
  cases shape : stack.levels <;> simp [Action.Yields, top, shape, eq_comm]

theorem top_stops_iff {stack after : BufferStack} {error : EmitError} :
    top.Stops stack error after ↔ stack.levels = [] ∧ error = .emptyStack ∧ after = stack := by
  cases shape : stack.levels <;> simp [Action.Stops, top, shape, eq_comm]

theorem pop_yields_iff {stack after : BufferStack} {level : Level} :
    pop.Yields stack level after ↔
      ∃ rest, stack.levels = level :: rest ∧ after = { stack with levels := rest } := by
  cases shape : stack.levels <;> simp [Action.Yields, pop, shape, and_assoc, eq_comm]

theorem pop_stops_iff {stack after : BufferStack} {error : EmitError} :
    pop.Stops stack error after ↔ stack.levels = [] ∧ error = .emptyStack ∧ after = stack := by
  cases shape : stack.levels <;> simp [Action.Stops, pop, shape, eq_comm]

theorem append_yields_iff {stack after : BufferStack} {text : String} {value : Unit} :
    (append text).Yields stack value after ↔
      ∃ level rest, stack.levels = level :: rest ∧ text.utf8ByteSize ≤ level.remaining ∧
        after = { stack with levels := level.extend text :: rest } := by
  cases shape : stack.levels with
  | nil => simp [Action.Yields, append, shape]
  | cons level rest =>
    by_cases room : text.utf8ByteSize ≤ level.remaining <;>
      simp [Action.Yields, append, shape, Level.append, room, and_assoc, eq_comm]

theorem append_stops_iff {stack after : BufferStack} {text : String} {error : EmitError} :
    (append text).Stops stack error after ↔
      after = stack ∧
        match stack.levels with
        | [] => error = .emptyStack
        | level :: _ =>
          level.remaining < text.utf8ByteSize ∧
            error = .capacityExceeded (level.size + text.utf8ByteSize) level.capacity := by
  cases shape : stack.levels with
  | nil => simp [Action.Stops, append, shape, eq_comm, and_comm]
  | cons level rest =>
    by_cases room : text.utf8ByteSize ≤ level.remaining
    · simp [Action.Stops, append, shape, Level.append, room, Nat.not_lt.mpr room]
    · simp [Action.Stops, append, shape, Level.append, room, Nat.not_le.mp room, eq_comm, and_comm]

theorem push_yields_iff {stack after : BufferStack} {construct : Construct} {value : Unit} :
    (push construct).Yields stack value after ↔
      stack.depth < stack.maxDepth ∧
        after =
          { stack with
            levels := ⟨construct, "", stack.bufferCapacity⟩ :: stack.levels
            spare := stack.spare.tail } := by
  by_cases full : stack.maxDepth ≤ stack.depth
  · simp [Action.Yields, push, full, Nat.not_lt.mpr full]
  · simp [Action.Yields, push, full, Level.opened, emptied, eq_comm, Nat.not_le.mp full]

theorem push_stops_iff {stack after : BufferStack} {construct : Construct} {error : EmitError} :
    (push construct).Stops stack error after ↔
      stack.maxDepth ≤ stack.depth ∧ error = .stackOverflow stack.maxDepth ∧ after = stack := by
  by_cases full : stack.maxDepth ≤ stack.depth <;> simp [Action.Stops, push, full, eq_comm]

theorem mergeInnermost_yields_iff {stack after : BufferStack} {value : Unit} :
    mergeInnermost.Yields stack value after ↔ stack.Absorbs ∧ after = stack.absorbed := by
  simp only [mergeInnermost, Action.yields_bind_iff, pop_yields_iff, append_yields_iff, top_yields_iff,
    Action.yields_report_iff, Action.yields_update_iff]
  -- There is something to merge only where two levels are open.
  rcases shape : stack.levels with _ | ⟨inner, _ | ⟨outer, rest⟩⟩
  · simp [Absorbs, shape]
  · simp [Absorbs, shape]
  · simpa [Absorbs, absorbed, shape, recycle, emptied, Level.size, and_assoc] using fun _ => eq_comm

theorem mergeInnermost_stops {stack after : BufferStack} {error : EmitError} (deep : 2 ≤ stack.depth)
    (stops : mergeInnermost.Stops stack error after) : error.isLimit = true := by
  match shape : stack.levels with
  | [] | [_] => simp [depth, shape] at deep
  | inner :: outer :: rest =>
    simp only [mergeInnermost, Action.stops_bind_iff, pop_stops_iff, pop_yields_iff, append_stops_iff,
      append_yields_iff, top_stops_iff, Action.not_stops_report, Action.not_stops_update, shape] at stops
    obtain ⟨absent, -⟩ | ⟨level, middle, ⟨below, levels, rfl⟩, stops⟩ := stops
    · cases absent
    · cases levels
      obtain ⟨-, -, rfl⟩ | ⟨-, extended, ⟨host, others, levels, -, rfl⟩, stops⟩ := stops
      · rfl
      · simp at stops

theorem mergeSteps_yields_iff {steps : Nat} {stack after : BufferStack} {value : Unit} :
    (mergeSteps steps).Yields stack value after ↔
      (∀ done < steps, (stack.absorbedTimes done).Absorbs) ∧ after = stack.absorbedTimes steps := by
  induction steps generalizing stack with
  | zero => simp [mergeSteps, absorbedTimes, eq_comm]
  | succ steps ih =>
    simp only [mergeSteps, Action.yields_bind_iff, mergeInnermost_yields_iff, ih]
    constructor
    · rintro ⟨-, middle, ⟨first, rfl⟩, others, rfl⟩
      refine ⟨?_, rfl⟩
      intro done below
      cases done with
      | zero => exact first
      | succ done => exact others done (by omega)
    · rintro ⟨each, rfl⟩
      -- The first merge meets the condition at zero, the others meet those of the stack it leaves.
      refine ⟨(), stack.absorbed, ⟨each 0 (by omega), rfl⟩, ?_, rfl⟩
      intro done below
      exact each (done + 1) (by omega)

theorem mergeSteps_stops {steps : Nat} {stack after : BufferStack} {error : EmitError}
    (deep : steps < stack.depth) (stops : (mergeSteps steps).Stops stack error after) :
    error.isLimit = true := by
  induction steps generalizing stack with
  | zero => simp [mergeSteps] at stops
  | succ steps ih =>
    simp only [mergeSteps, Action.stops_bind_iff, mergeInnermost_yields_iff] at stops
    obtain first | ⟨-, middle, ⟨-, rfl⟩, others⟩ := stops
    · exact mergeInnermost_stops (by omega) first
    · have fewer := stack.depth_absorbed (by omega)
      exact ih (by omega) others

theorem merge_yields_iff {count : Nat} {stack after : BufferStack} {value : Unit} :
    (merge count).Yields stack value after ↔
      2 ≤ count ∧ count ≤ stack.depth ∧ stack.innermostSize count ≤ stack.bufferCapacity ∧
        (∀ done < count - 1, (stack.absorbedTimes done).Absorbs) ∧
          after = stack.absorbedTimes (count - 1) := by
  simp only [merge, Action.yields_bind_iff, Action.yields_read_iff, and_assoc, exists_and_left,
    exists_eq_left', Bool.or_eq_true, decide_eq_true_eq]
  split
  -- The two checks refuse exactly what the conditions on the right exclude.
  next invalid =>
    simp only [Action.not_yields_fail, false_iff]
    omega
  next valid =>
    split
    next large =>
      simp only [Action.not_yields_fail, false_iff]
      omega
    next fits =>
      simp only [Action.yields_bind_iff, mergeSteps_yields_iff, Action.yields_read_iff, Action.yields_report_iff]
      constructor
      · rintro ⟨-, middle, ⟨each, rfl⟩, given, last, ⟨rfl, rfl⟩, rfl⟩
        exact ⟨by omega, by omega, by omega, each, rfl⟩
      · rintro ⟨-, -, -, each, rfl⟩
        exact ⟨(), _, ⟨each, rfl⟩, _, _, ⟨rfl, rfl⟩, rfl⟩

theorem merge_of_invalid {count : Nat} {stack : BufferStack} (invalid : count < 2 ∨ stack.depth < count) :
    (merge count).Stops stack (.invalidMerge count stack.depth) stack := by
  refine Action.stops_bind_iff.mpr (.inr ⟨stack, stack, Action.yields_read_iff.mpr ⟨rfl, rfl⟩, ?_⟩)
  rw [if_pos (by simpa using invalid)]
  exact Action.stops_fail_iff.mpr ⟨rfl, rfl⟩

theorem merge_of_crowded {count : Nat} {stack : BufferStack} (valid : 2 ≤ count) (deep : count ≤ stack.depth)
    (crowded : stack.bufferCapacity < stack.innermostSize count) :
    (merge count).Stops stack (.capacityExceeded (stack.innermostSize count) stack.bufferCapacity) stack := by
  have isValid : ¬ (count < 2 ∨ stack.depth < count) := by omega
  refine Action.stops_bind_iff.mpr (.inr ⟨stack, stack, Action.yields_read_iff.mpr ⟨rfl, rfl⟩, ?_⟩)
  rw [if_neg (by simpa using isValid), if_pos crowded]
  exact Action.stops_fail_iff.mpr ⟨rfl, rfl⟩

theorem merge_stops {count : Nat} {stack after : BufferStack} {error : EmitError}
    (valid : 2 ≤ count) (deep : count ≤ stack.depth) (stops : (merge count).Stops stack error after) :
    error.isLimit = true := by
  simp only [merge, Action.stops_bind_iff, Action.yields_read_iff, Action.not_stops_read, false_or, and_assoc,
    exists_and_left, exists_eq_left', Bool.or_eq_true, decide_eq_true_eq] at stops
  split at stops
  next invalid => omega
  next =>
    split at stops
    next large =>
      obtain ⟨rfl, -⟩ := Action.stops_fail_iff.mp stops
      rfl
    next fits =>
      simp only [Action.stops_bind_iff, Action.not_stops_read, Action.not_stops_report, and_false, exists_false,
        or_false] at stops
      exact mergeSteps_stops (by omega) stops

end BufferStack

/-! ## What the effects leave alone -/

namespace Context

@[simp] theorem virtual_appended (context : Context) (text : String) :
    (context.appended text).virtual = context.virtual ++ text.toUTF8 := by
  unfold appended
  split
  next levels => simp [virtual, levels, Level.joined]
  next level rest levels => simp [virtual, levels, Level.joined, ByteArray.append_assoc]

@[simp] theorem outline_appended (context : Context) (text : String) :
    (context.appended text).outline = context.outline := by
  unfold appended; split <;> simp_all [outline]

@[simp] theorem pool_appended (context : Context) (text : String) :
    (context.appended text).pool = context.pool := by
  unfold appended; split <;> rfl

@[simp] theorem labels_appended (context : Context) (text : String) :
    (context.appended text).labels = context.labels := by
  unfold appended; split <;> rfl

@[simp] theorem options_appended (context : Context) (text : String) :
    (context.appended text).options = context.options := by
  unfold appended; split <;> rfl

@[simp] theorem virtual_opened (context : Context) (construct : Construct) :
    (context.opened construct).virtual = context.virtual := by
  simp [virtual, opened, Level.joined]

@[simp] theorem outline_opened (context : Context) (construct : Construct) :
    (context.opened construct).outline = construct :: context.outline := rfl

@[simp] theorem pool_opened (context : Context) (construct : Construct) :
    (context.opened construct).pool = context.pool := rfl

@[simp] theorem labels_opened (context : Context) (construct : Construct) :
    (context.opened construct).labels = context.labels := rfl

@[simp] theorem options_opened (context : Context) (construct : Construct) :
    (context.opened construct).options = context.options := rfl

@[simp] theorem virtual_merged (context : Context) (count : Nat) :
    (context.merged count).virtual = context.virtual := by
  simp [virtual, merged]

theorem outline_merged {context : Context} {count : Nat} (valid : 2 ≤ count)
    (deep : count ≤ context.stack.depth) :
    (context.merged count).outline = context.outline.drop (count - 1) :=
  BufferStack.constructs_absorbedTimes (by omega)

@[simp] theorem pool_merged (context : Context) (count : Nat) :
    (context.merged count).pool = context.pool := rfl

@[simp] theorem labels_merged (context : Context) (count : Nat) :
    (context.merged count).labels = context.labels := rfl

@[simp] theorem options_merged (context : Context) (count : Nat) :
    (context.merged count).options = context.options := rfl

@[simp] theorem virtual_closed (context : Context) : context.closed.virtual = context.virtual := by
  unfold closed
  split
  next level levels => simp [virtual, levels, Level.joined]
  next => simp [virtual]

theorem outline_closed {context : Context} (closable : context.Closable) :
    context.closed.outline = context.outline.tail := by
  match levels : context.stack.levels with
  | [] => simp [Closable, BufferStack.Absorbs, levels] at closable
  | [level] => simp [closed, outline, levels]
  | level :: parent :: rest => simp [closed, outline, BufferStack.absorbed, levels]

@[simp] theorem pool_closed (context : Context) : context.closed.pool = context.pool := by
  unfold closed; split <;> rfl

@[simp] theorem labels_closed (context : Context) : context.closed.labels = context.labels := by
  unfold closed; split <;> rfl

@[simp] theorem options_closed (context : Context) : context.closed.options = context.options := by
  unfold closed; split <;> rfl

@[simp] theorem virtual_numbered (context : Context) : context.numbered.virtual = context.virtual := rfl

@[simp] theorem outline_numbered (context : Context) : context.numbered.outline = context.outline := rfl

@[simp] theorem pool_numbered (context : Context) : context.numbered.pool = context.pool := rfl

@[simp] theorem options_numbered (context : Context) : context.numbered.options = context.options := rfl

@[simp] theorem labels_numbered (context : Context) :
    context.numbered.labels = ⟨context.labels.issued + 1⟩ := rfl

@[simp] theorem limit_appended (context : Context) (text : String) :
    (context.appended text).stream.limit = context.stream.limit := by
  unfold appended; split <;> rfl

@[simp] theorem limit_closed (context : Context) :
    context.closed.stream.limit = context.stream.limit := by
  unfold closed; split <;> rfl

end Context

/-! ## Steps on the context -/

namespace Emission

@[simp] theorem yields_onPool_iff {α : Type} {action : Action EmitError RegisterPool α}
    {context after : Context} {value : α} :
    (onPool action).Yields context value after ↔
      ∃ pool, action.Yields context.pool value pool ∧ { context with pool } = after :=
  Action.yields_focus_iff

@[simp] theorem yields_onStack_iff {α : Type} {action : Action EmitError BufferStack α}
    {context after : Context} {value : α} :
    (onStack action).Yields context value after ↔
      ∃ stack, action.Yields context.stack value stack ∧ { context with stack } = after :=
  Action.yields_focus_iff

@[simp] theorem stops_onStack_iff {α : Type} {action : Action EmitError BufferStack α}
    {context after : Context} {error : EmitError} :
    (onStack action).Stops context error after ↔
      ∃ stack, action.Stops context.stack error stack ∧ { context with stack } = after :=
  Action.stops_focus_iff

theorem written_of_write_ok {stream : Stream} {text : String} {value : Unit}
    (ok : (stream.write text).1 = .ok value) :
    (stream.write text).2 = { stream with written := stream.written ++ text.toUTF8 } := by
  unfold Stream.write at ok ⊢
  split
  next => rfl
  next limit limited =>
    simp only [limited] at ok
    split at ok
    next fits => rw [if_pos fits]
    next => cases ok

theorem write_yields {context after : Context} {text : String} {value : Unit}
    (yields : (write text).Yields context value after) :
    after =
      { context with
        stream := { context.stream with written := context.stream.written ++ text.toUTF8 } } := by
  obtain ⟨result, rfl⟩ := yields
  cases outcome : (context.stream.write text).1 with
  | ok given => simp only [write, written_of_write_ok outcome]
  | error fault => simp [write, outcome] at result

theorem write_of_reliable {context : Context} (reliable : context.stream.limit = none) (text : String) :
    (write text).Yields context ()
      { context with stream := { context.stream with written := context.stream.written ++ text.toUTF8 } } := by
  simp [Action.Yields, write, Stream.write_of_reliable reliable]

/-- What a stream refuses is no matter of levels or literals. -/
theorem write_stops {context after : Context} {text : String} {error : EmitError}
    (stops : (write text).Stops context error after) : ∃ fault, error = .io fault := by
  have failed := stops.1
  cases outcome : (context.stream.write text).1 with
  | ok value => simp [write, outcome] at failed
  | error fault =>
    simp only [write, outcome, exceptMapError_error, Except.error.injEq] at failed
    exact ⟨fault, failed.symm⟩

theorem buffer_yields_iff {context after : Context} {text : String} {value : Unit} :
    (buffer text).Yields context value after ↔
      context.stack.levels ≠ [] ∧ context.Fits text ∧ after = context.appended text := by
  simp only [buffer, Action.yields_bind_iff, yields_onStack_iff, BufferStack.append_yields_iff,
    BufferStack.top_yields_iff, Action.yields_report_iff]
  cases levels : context.stack.levels with
  | nil => simp
  | cons level rest =>
    simp only [Context.Fits, Context.appended, levels]
    constructor
    · rintro ⟨-, middle, ⟨stack, ⟨host, others, shape, room, rfl⟩, rfl⟩, given, last, ⟨inner, ⟨-, rfl⟩, rfl⟩, rfl⟩
      cases shape
      exact ⟨by simp, room, rfl⟩
    · rintro ⟨-, room, rfl⟩
      exact ⟨(), _, ⟨_, ⟨level, rest, rfl, room, rfl⟩, rfl⟩, level.extend text, _, ⟨_, ⟨⟨rest, rfl⟩, rfl⟩, rfl⟩, rfl⟩

/-- Text goes to one place only, and whole. -/
theorem append_yields {context after : Context} {text : String} {value : Unit}
    (yields : (append text).Yields context value after) :
    context.Fits text ∧ after = context.appended text := by
  simp only [append, Action.yields_bind_iff, Action.yields_read_iff] at yields
  obtain ⟨given, middle, ⟨rfl, rfl⟩, yields⟩ := yields
  -- Whether a level is open decides where the text goes, and nothing else does.
  cases levels : context.stack.levels with
  | nil =>
    simp only [Context.isBuffered, BufferStack.isEmpty, levels, List.isEmpty_nil, Bool.not_true, Bool.false_eq_true,
      if_false] at yields
    simpa [Context.Fits, Context.appended, levels] using write_yields yields
  | cons level rest =>
    simp only [Context.isBuffered, BufferStack.isEmpty, levels, List.isEmpty_cons, Bool.not_false, if_true] at yields
    exact (buffer_yields_iff.mp yields).2

/-- Where no level is open, all is left to the stream. -/
theorem append_of_unbuffered {context : Context} (unbuffered : context.stack.levels = []) (text : String) :
    append text context = write text context := by
  have isUnbuffered : context.isBuffered = false := by simp [Context.isBuffered, BufferStack.isEmpty, unbuffered]
  rw [append, Action.read_bind_apply, isUnbuffered]
  rfl

/-- The stream has no say in what goes to a level. -/
theorem append_of_buffered {context : Context} {text : String} (buffered : context.stack.levels ≠ [])
    (fits : context.Fits text) : (append text).Yields context () (context.appended text) := by
  simp only [append, Action.yields_bind_iff, Action.yields_read_iff]
  refine ⟨context, context, ⟨rfl, rfl⟩, ?_⟩
  have isBuffered : context.isBuffered = true := by simpa [Context.isBuffered, BufferStack.isEmpty] using buffered
  rw [if_pos isBuffered]
  exact buffer_yields_iff.mpr ⟨buffered, fits, rfl⟩

/-- A level that is too small for a text takes none of it. -/
theorem append_of_crowded {context : Context} {text : String} {level : Level} {rest : List Level}
    (levels : context.stack.levels = level :: rest) (crowded : level.remaining < text.utf8ByteSize) :
    (append text).Stops context (.capacityExceeded (level.size + text.utf8ByteSize) level.capacity) context := by
  have isBuffered : context.isBuffered = true := by simp [Context.isBuffered, BufferStack.isEmpty, levels]
  have refused : (BufferStack.append text).Stops context.stack _ context.stack :=
    BufferStack.append_stops_iff.mpr ⟨rfl, by simpa only [levels] using ⟨crowded, rfl⟩⟩
  rw [append, Action.Stops, Action.read_bind_apply, isBuffered]
  exact Action.stops_bind_iff.mpr (.inl (stops_onStack_iff.mpr ⟨_, refused, rfl⟩))

theorem append_yields_iff {context after : Context} {text : String} {value : Unit}
    (reliable : context.stream.limit = none) :
    (append text).Yields context value after ↔ context.Fits text ∧ after = context.appended text := by
  refine ⟨append_yields, ?_⟩
  rintro ⟨fits, rfl⟩
  by_cases levels : context.stack.levels = []
  · simp only [Action.Yields, append_of_unbuffered levels, Context.appended, levels]
    exact write_of_reliable reliable text
  · exact append_of_buffered levels fits

/-- A stream without a limit refuses nothing, so only a level can be too small. -/
theorem append_stops {context after : Context} {text : String} {error : EmitError}
    (reliable : context.stream.limit = none) (stops : (append text).Stops context error after) :
    ¬ context.Fits text ∧ error.isLimit = true ∧ after = context := by
  have crowded : ¬ context.Fits text := by
    intro fits
    have yields : (append text).Yields context () _ := (append_yields_iff reliable).mpr ⟨fits, rfl⟩
    exact yields.not_stops stops
  cases levels : context.stack.levels with
  | nil => simp [Context.Fits, levels] at crowded
  | cons level rest =>
    have small : level.remaining < text.utf8ByteSize := by simpa [Context.Fits, levels] using crowded
    obtain ⟨failed, unchanged⟩ := append_of_crowded levels small
    cases stops.1.symm.trans failed
    exact ⟨crowded, rfl, stops.2.symm.trans unchanged⟩

theorem emitFragment_yields_iff {context after : Context} {fragment : Fragment} {value : Unit} :
    (emitFragment fragment).Yields context value after ↔
      (append (fragment.text context.options.annotate)).Yields context value after := by
  simp [emitFragment, and_assoc]

theorem emitFragment_stops_iff {context after : Context} {fragment : Fragment} {error : EmitError} :
    (emitFragment fragment).Stops context error after ↔
      (append (fragment.text context.options.annotate)).Stops context error after := by
  simp [emitFragment, and_assoc]

theorem emit_yields {context after : Context} {operation : Operation} {value : Unit}
    (yields : (emit operation).Yields context value after) :
    context.Fits (operation.text context.options.annotate) ∧
      after = context.appended (operation.text context.options.annotate) :=
  append_yields (emitFragment_yields_iff.mp yields)

theorem emit_yields_iff {context after : Context} {operation : Operation} {value : Unit}
    (reliable : context.stream.limit = none) :
    (emit operation).Yields context value after ↔
      context.Fits (operation.text context.options.annotate) ∧
        after = context.appended (operation.text context.options.annotate) :=
  emitFragment_yields_iff.trans (append_yields_iff reliable)

theorem emit_stops {context after : Context} {operation : Operation} {error : EmitError}
    (reliable : context.stream.limit = none) (stops : (emit operation).Stops context error after) :
    error.isLimit = true :=
  (append_stops reliable (emitFragment_stops_iff.mp stops)).2.1

@[simp] theorem newLabel_yields_iff {context after : Context} {label : Label} :
    newLabel.Yields context label after ↔ label = ⟨context.labels.issued⟩ ∧ after = context.numbered := by
  simp [newLabel, Action.Yields, LabelSupply.next, LabelSupply.peek, Context.numbered, eq_comm]

@[simp] theorem not_stops_newLabel {context after : Context} {error : EmitError} :
    ¬ newLabel.Stops context error after := by
  simp [newLabel, Action.Stops]

theorem push_yields_iff {context after : Context} {construct : Construct} {value : Unit} :
    (push construct).Yields context value after ↔
      context.stack.depth < context.stack.maxDepth ∧ after = context.opened construct := by
  simp only [push, Action.yields_reportingFailure_iff, yields_onStack_iff, BufferStack.push_yields_iff]
  constructor
  · rintro ⟨stack, ⟨room, rfl⟩, rfl⟩
    exact ⟨room, rfl⟩
  · rintro ⟨room, rfl⟩
    exact ⟨_, ⟨room, rfl⟩, rfl⟩

theorem push_stops_iff {context after : Context} {construct : Construct} {error : EmitError} :
    (push construct).Stops context error after ↔
      context.stack.maxDepth ≤ context.stack.depth ∧ error = .stackOverflow context.stack.maxDepth ∧
        after = context := by
  simp only [push, Action.stops_reportingFailure_iff, stops_onStack_iff, BufferStack.push_stops_iff]
  constructor
  · rintro ⟨stack, ⟨full, rfl, rfl⟩, rfl⟩
    exact ⟨full, rfl, rfl⟩
  · rintro ⟨full, rfl, rfl⟩
    exact ⟨_, ⟨full, rfl, rfl⟩, rfl⟩

theorem push_stops {context after : Context} {construct : Construct} {error : EmitError}
    (stops : (push construct).Stops context error after) : error.isLimit = true := by
  obtain ⟨-, rfl, -⟩ := push_stops_iff.mp stops
  rfl

theorem merge_yields_iff {context after : Context} {count : Nat} {value : Unit} :
    (merge count).Yields context value after ↔
      2 ≤ count ∧ count ≤ context.stack.depth ∧
        context.stack.innermostSize count ≤ context.stack.bufferCapacity ∧
        (∀ done < count - 1, (context.stack.absorbedTimes done).Absorbs) ∧ after = context.merged count := by
  simp only [merge, Action.yields_reportingFailure_iff, yields_onStack_iff, BufferStack.merge_yields_iff]
  constructor
  · rintro ⟨stack, ⟨valid, deep, fits, each, rfl⟩, rfl⟩
    exact ⟨valid, deep, fits, each, rfl⟩
  · rintro ⟨valid, deep, fits, each, rfl⟩
    exact ⟨_, ⟨valid, deep, fits, each, rfl⟩, rfl⟩

theorem merge_stops {context after : Context} {count : Nat} {error : EmitError} (valid : 2 ≤ count)
    (deep : count ≤ context.stack.depth) (stops : (merge count).Stops context error after) :
    error.isLimit = true := by
  simp only [merge, Action.stops_reportingFailure_iff, stops_onStack_iff] at stops
  obtain ⟨stack, stops, -⟩ := stops
  exact BufferStack.merge_stops valid deep stops

/-- Closing checks for room before it touches anything. -/
theorem closable_eq_ok_iff {context : Context} {value : Unit} :
    closable context.stack = .ok value ↔ context.Closable := by
  match levels : context.stack.levels with
  | [] => simp [closable, Context.Closable, BufferStack.Absorbs, levels]
  | [level] => simp [closable, Context.Closable, levels]
  | level :: parent :: rest => simp [closable, Context.Closable, BufferStack.Absorbs, levels]

theorem fits_popped_iff {context : Context} {level : Level} {rest : List Level}
    (levels : context.stack.levels = level :: rest) :
    { context with stack := { context.stack with levels := rest } }.Fits level.text ↔ context.Closable := by
  cases rest <;> simp [Context.Fits, Context.Closable, BufferStack.Absorbs, levels, Level.size]

theorem recycle_popped_appended {context popped : Context} {level : Level} {rest : List Level}
    (levels : context.stack.levels = level :: rest)
    (isPopped : popped = { context with stack := { context.stack with levels := rest } }) :
    { popped.appended level.text with stack := (popped.appended level.text).stack.recycle level.text } =
      context.closed := by
  subst isPopped
  cases rest <;>
    simp [Context.appended, Context.closed, BufferStack.absorbed, BufferStack.recycle, emptied, levels]

theorem close_yields {context after : Context} {construct : Construct}
    (yields : close.Yields context construct after) :
    context.Closable ∧ context.outline.head? = some construct ∧ after = context.closed := by
  simp only [close, Action.yields_bind_iff, Action.yields_read_iff, Action.yields_reportingFailure_iff,
    Action.yields_ofExcept_iff, closable_eq_ok_iff, yields_onStack_iff, BufferStack.pop_yields_iff,
    Action.yields_report_iff, Action.yields_update_iff, Action.yields_pure_iff] at yields
  obtain ⟨_, _, ⟨rfl, rfl⟩, _, _, ⟨fits, rfl⟩, level, popped, ⟨_, ⟨rest, levels, rfl⟩, isPopped⟩,
    _, _, appends, _, _, ⟨rfl, rfl⟩, _, _, rfl, _, _, ⟨_, rfl, rfl⟩, rfl, rfl⟩ := yields
  -- Popping a level, appending its text and keeping its buffer is what closing does to a context.
  obtain ⟨-, rfl⟩ := append_yields appends
  exact ⟨fits, by simp [Context.outline, levels], recycle_popped_appended levels isPopped.symm⟩

/-- Closing succeeds where what encloses the level takes its text. -/
theorem close_of_append {context popped : Context} {level : Level} {rest : List Level}
    (levels : context.stack.levels = level :: rest) (fits : context.Closable)
    (isPopped : popped = { context with stack := { context.stack with levels := rest } })
    (appends : (append level.text).Yields popped () (popped.appended level.text)) :
    close.Yields context level.construct context.closed := by
  simp only [close, Action.yields_bind_iff, Action.yields_read_iff, Action.yields_reportingFailure_iff,
    Action.yields_ofExcept_iff, closable_eq_ok_iff, yields_onStack_iff, BufferStack.pop_yields_iff,
    Action.yields_report_iff, Action.yields_update_iff, Action.yields_pure_iff]
  refine ⟨_, _, ⟨rfl, rfl⟩, (), _, ⟨fits, rfl⟩, level, popped, ⟨_, ⟨rest, levels, rfl⟩, isPopped.symm⟩, (), _, appends,
    _, _, ⟨rfl, rfl⟩, (), _, rfl, (), _, ⟨_, rfl, rfl⟩, rfl, ?_⟩
  exact recycle_popped_appended levels isPopped

theorem close_yields_iff {context after : Context} {construct : Construct}
    (reliable : context.stream.limit = none) :
    close.Yields context construct after ↔
      context.Closable ∧ context.outline.head? = some construct ∧ after = context.closed := by
  refine ⟨close_yields, ?_⟩
  rintro ⟨fits, head, rfl⟩
  cases levels : context.stack.levels with
  | nil => simp [Context.outline, levels] at head
  | cons level rest =>
    obtain rfl : level.construct = construct := by simpa [Context.outline, levels] using head
    have room := (fits_popped_iff levels).mpr fits
    exact close_of_append levels fits rfl ((append_yields_iff (by exact reliable)).mpr ⟨room, rfl⟩)

/-- Inside another level, the stream has no part in closing. -/
theorem close_of_nested {context : Context} {level parent : Level} {rest : List Level}
    (levels : context.stack.levels = level :: parent :: rest) (room : level.size ≤ parent.remaining) :
    close.Yields context level.construct context.closed := by
  have fits : context.Closable := by simpa [Context.Closable, BufferStack.Absorbs, levels] using room
  exact close_of_append levels fits rfl (append_of_buffered (by simp) ((fits_popped_iff levels).mpr fits))

/-- A close that is refused changes nothing. -/
theorem close_of_refused {context : Context} {error : EmitError} (refused : closable context.stack = .error error) :
    close.Stops context error context := by
  refine Action.stops_bind_iff.mpr (.inr ⟨_, _, Action.yields_read_iff.mpr ⟨rfl, rfl⟩, ?_⟩)
  refine Action.stops_bind_iff.mpr (.inl (Action.stops_reportingFailure_iff.mpr ?_))
  exact Action.stops_ofExcept_iff.mpr ⟨refused, rfl⟩

/-- With a level to close and an unlimited stream, only the level around it can be too small. -/
theorem close_stops {context after : Context} {error : EmitError} (reliable : context.stream.limit = none)
    (isOpen : context.outline ≠ []) (stops : close.Stops context error after) :
    error.isLimit = true ∧ after = context := by
  cases levels : context.stack.levels with
  | nil => simp [Context.outline, levels] at isOpen
  | cons level rest =>
    have crowded : ¬ context.Closable := by
      intro fits
      have yields : close.Yields context level.construct _ :=
        (close_yields_iff reliable).mpr ⟨fits, by simp [Context.outline, levels], rfl⟩
      exact yields.not_stops stops
    simp only [close, Action.stops_bind_iff, Action.not_stops_read, Action.yields_read_iff, false_or,
      Action.stops_reportingFailure_iff, Action.yields_reportingFailure_iff, Action.stops_ofExcept_iff,
      Action.yields_ofExcept_iff, closable_eq_ok_iff] at stops
    obtain ⟨_, _, ⟨rfl, rfl⟩, ⟨refused, rfl⟩ | ⟨_, _, ⟨fits, _⟩, _⟩⟩ := stops
    -- Had the check passed, the close would have succeeded.
    case inr => exact absurd fits crowded
    refine ⟨?_, rfl⟩
    cases rest with
    | nil => simp [Context.Closable, levels] at crowded
    | cons parent rest =>
      simp only [closable, levels] at refused
      split at refused
      next => cases refused
      next => cases refused; rfl

/-! ## The construct that a level belongs to -/

theorem topConstruct_yields_iff {context after : Context} {construct : Construct} :
    topConstruct.Yields context construct after ↔
      context.outline.head? = some construct ∧ after = context := by
  simp only [topConstruct, Action.yields_bind_iff, yields_onStack_iff, BufferStack.top_yields_iff,
    Action.yields_pure_iff]
  constructor
  · rintro ⟨level, _, ⟨_, ⟨⟨rest, levels⟩, rfl⟩, rfl⟩, rfl, rfl⟩
    exact ⟨by simp [Context.outline, levels], rfl⟩
  · rintro ⟨head, rfl⟩
    cases levels : after.stack.levels with
    | nil => simp [Context.outline, levels] at head
    | cons level rest =>
      simp only [Context.outline, levels, List.map_cons, List.head?_cons, Option.some.injEq] at head
      exact ⟨level, after, ⟨_, ⟨⟨rest, rfl⟩, rfl⟩, rfl⟩, head, rfl⟩

theorem topConstruct_stops_iff {context after : Context} {error : EmitError} :
    topConstruct.Stops context error after ↔
      context.outline = [] ∧ error = .emptyStack ∧ after = context := by
  simp only [topConstruct, Action.stops_bind_iff, stops_onStack_iff, BufferStack.top_stops_iff,
    Action.not_stops_pure, and_false, exists_false, or_false]
  constructor
  · rintro ⟨_, ⟨levels, rfl, rfl⟩, rfl⟩
    exact ⟨by simp [Context.outline, levels], rfl, rfl⟩
  · rintro ⟨nothing, rfl, rfl⟩
    exact ⟨_, ⟨by simpa [Context.outline] using nothing, rfl, rfl⟩, rfl⟩

/-! ## Framing a program -/

theorem prolog_yields {context after : Context} {value : Unit}
    (yields : prolog.Yields context value after) :
    after = context.appended (Fragment.prolog.text context.options.annotate) :=
  (append_yields (emitFragment_yields_iff.mp yields)).2

theorem ensureUnbuffered_yields_iff {context after : Context} {value : Unit} :
    ensureUnbuffered.Yields context value after ↔ context.stack.levels = [] ∧ after = context := by
  simp only [ensureUnbuffered, Action.yields_bind_iff, Action.yields_read_iff, and_assoc, exists_and_left,
    exists_eq_left', BufferStack.depth, List.length_eq_zero_iff]
  split
  next unbuffered => simp [unbuffered, eq_comm]
  next buffered => simp [buffered]

/-- A program ends only where no level is open. -/
theorem finish_yields {context after : Context} {table : StringTable} {value : Unit}
    (yields : (finish table).Yields context value after) :
    context.stack.levels = [] ∧ ∃ entries, table.entries = .ok entries ∧
      after =
        (context.appended (Fragment.epilog.text context.options.annotate)).appended
          ((Fragment.dataSection entries).text context.options.annotate) := by
  simp only [finish, epilog, stringLiterals, Action.yields_bind_iff, ensureUnbuffered_yields_iff,
    Action.yields_ofExcept_iff, Action.yields_report_iff] at yields
  obtain ⟨_, _, ⟨_, _, ⟨unbuffered, rfl⟩, exits⟩, _, _, ⟨_, rfl⟩, entries, _, ⟨found, rfl⟩, _, _, rfl, data⟩ := yields
  obtain ⟨_, rfl⟩ := append_yields (emitFragment_yields_iff.mp exits)
  obtain ⟨_, rfl⟩ := append_yields (emitFragment_yields_iff.mp data)
  refine ⟨unbuffered, entries, ?_, by simp⟩
  cases stored : table.entries with
  | error name => simp [stored] at found
  | ok given => simpa [stored] using found

theorem release_yields {context after : Context} {size : Nat} (yields : release.Yields context size after) :
    after = { context with stack := context.stack.clear } := by
  simp only [release, Action.yields_bind_iff, yields_onStack_iff, Action.yields_update_iff, Action.yields_read_iff,
    Action.yields_ofExcept_iff, Action.yields_pure_iff] at yields
  obtain ⟨_, _, ⟨_, rfl, rfl⟩, _, _, ⟨rfl, rfl⟩, _, _, ⟨_, rfl⟩, _, rfl⟩ := yields
  rfl

/-! ## Framing a program on a reliable stream -/

theorem emitFragment_of_unbuffered {context : Context} (fragment : Fragment)
    (reliable : context.stream.limit = none) (unbuffered : context.stack.levels = []) :
    (emitFragment fragment).Yields context () (context.appended (fragment.text context.options.annotate)) := by
  refine emitFragment_yields_iff.mpr ((append_yields_iff reliable).mpr ⟨?_, rfl⟩)
  simp [Context.Fits, unbuffered]

theorem finish_of_unbuffered {context : Context} {table : StringTable} {entries : List (String × String)}
    (reliable : context.stream.limit = none) (unbuffered : context.stack.levels = [])
    (found : table.entries = .ok entries) :
    (finish table).Yields context ()
      ((context.appended (Fragment.epilog.text context.options.annotate)).appended
        ((Fragment.dataSection entries).text context.options.annotate)) := by
  have still : (context.appended (Fragment.epilog.text context.options.annotate)).stack.levels = [] := by
    simp [Context.appended, unbuffered]
  have exits : epilog.Yields context () _ :=
    Action.yields_bind_iff.mpr ⟨(), context, ensureUnbuffered_yields_iff.mpr ⟨unbuffered, rfl⟩,
      emitFragment_of_unbuffered .epilog reliable unbuffered⟩
  refine Action.yields_bind_iff.mpr ⟨(), _, exits, ?_⟩
  refine Action.yields_bind_iff.mpr ⟨(), _, ensureUnbuffered_yields_iff.mpr ⟨still, rfl⟩, ?_⟩
  refine Action.yields_bind_iff.mpr ⟨entries, _, Action.yields_ofExcept_iff.mpr ⟨by rw [found]; rfl, rfl⟩, ?_⟩
  refine Action.yields_bind_iff.mpr ⟨(), _, Action.yields_report_iff.mpr rfl, ?_⟩
  have writes := emitFragment_of_unbuffered (.dataSection entries) (by simpa using reliable) still
  rwa [Context.options_appended] at writes

theorem ensureUnbuffered_of_buffered {context : Context} (buffered : context.stack.levels ≠ []) :
    ensureUnbuffered.Stops context (.unclosedLevels context.stack.depth) context := by
  refine Action.stops_bind_iff.mpr (.inr ⟨_, _, Action.yields_read_iff.mpr ⟨rfl, rfl⟩, ?_⟩)
  rw [if_neg (by simpa [BufferStack.depth] using buffered)]
  exact Action.stops_fail_iff.mpr ⟨rfl, rfl⟩

theorem finish_of_buffered {context : Context} {table : StringTable} (buffered : context.stack.levels ≠ []) :
    (finish table).Stops context (.unclosedLevels context.stack.depth) context :=
  Action.stops_bind_iff.mpr (.inl (Action.stops_bind_iff.mpr (.inl (ensureUnbuffered_of_buffered buffered))))

theorem release_of_faultless {context : Context} (faultless : context.stream.flushFault = none) :
    ∃ size after, release.Yields context size after := by
  obtain yields | ⟨error, after, stops⟩ := release.yields_or_stops context
  · exact yields
  · simp only [release, Action.stops_bind_iff, stops_onStack_iff, yields_onStack_iff, Action.not_stops_update,
      Action.yields_update_iff, Action.not_stops_read, Action.yields_read_iff, Action.stops_ofExcept_iff,
      Action.not_stops_pure, and_false, false_and, exists_false, or_false, false_or] at stops
    obtain ⟨_, _, ⟨_, rfl, rfl⟩, _, _, ⟨rfl, rfl⟩, refused, _⟩ := stops
    simp [Stream.flush, faultless] at refused

end Emission

end MipsBackend
