import MipsBackend.Proofs.Resemblance

/-! # Emission in one piece

An operation is emitted as one text, comment included. A level takes all of it or nothing, to the byte, and only the
limit of a stream can cut it.

* `Context.SameFrame`: everything of a context that text passes by.
* `Context.TakesAtOnce`: what adding a text in one piece comes to.
* `Emission.emitted_at_once`: so every operation is emitted.
-/

namespace MipsBackend

/-! ## Every operation has a text -/

theorem Inst.size_line_pos (inst : Inst) : 0 < inst.line.utf8ByteSize := by
  unfold line
  split <;> simp only [String.utf8ByteSize_append] <;> exact Nat.lt_add_left _ (by decide)

theorem Operation.insts_ne_nil (operation : Operation) : operation.insts ≠ [] := by
  cases operation <;> simp [insts, Service.call]

theorem Operation.size_text_pos (operation : Operation) (annotate : Bool) :
    0 < (operation.text annotate).utf8ByteSize := by
  obtain ⟨inst, rest, insts⟩ := List.exists_cons_of_ne_nil operation.insts_ne_nil
  have own := inst.size_line_pos
  simp only [text, Fragment.text, Fragment.emitted, fragment, insts, Inst.lines_append, Inst.lines_cons,
    String.utf8ByteSize_append]
  omega

/-! ## Adding a text in one piece -/

/-- The parts of a context that a text does not change, wherever it goes. -/
structure Context.SameFrame (before after : Context) : Prop where
  pool_eq : after.pool = before.pool
  labels_eq : after.labels = before.labels
  options_eq : after.options = before.options
  bounds_eq : after.stack.bounds = before.stack.bounds
  spare_eq : after.stack.spare = before.stack.spare
  /-- The innermost level keeps its construct, and the levels around it are as they were. -/
  outline_eq : after.outline = before.outline
  outer_eq : after.stack.levels.tail = before.stack.levels.tail

/-- Adding a text to a context in one piece: a level takes it whole or not at all, and the stream takes it whole
unless its limit cuts it. -/
structure Context.TakesAtOnce (context : Context) (text : String) (outcome : Outcome EmitError Context Unit) :
    Prop where
  fits_iff : ∀ level ∈ context.stack.innermost?,
    (outcome.result = .ok () ↔ level.size + text.utf8ByteSize ≤ level.capacity)
  extended : ∀ level rest, context.stack.levels = level :: rest → outcome.result = .ok () →
    outcome.state =
      { context with
        stack := { context.stack with levels := { level with text := level.text ++ text } :: rest } }
  refused : ∀ level ∈ context.stack.innermost?, outcome.result ≠ .ok () →
    outcome.result = .error (.capacityExceeded (level.size + text.utf8ByteSize) level.capacity) ∧
      outcome.state = context
  written : context.stack.levels = [] →
    (∀ limit ∈ context.stream.limit, text.utf8ByteSize ≤ limit.size - context.stream.written.size) →
    outcome.result = .ok () ∧
      outcome.state =
        { context with
          stream := { context.stream with written := context.stream.written ++ text.toUTF8 } }
  /-- The bytes that still fit are written, and no other. -/
  cut : context.stack.levels = [] → ∀ limit ∈ context.stream.limit,
    limit.size - context.stream.written.size < text.utf8ByteSize →
    outcome.result = .error (.io limit.fault) ∧
      outcome.state =
        { context with
          stream :=
            { context.stream with
              written :=
                context.stream.written ++ text.toUTF8.extract 0 (limit.size - context.stream.written.size) } }
  frame : context.SameFrame outcome.state

/-- Something fits into what remains of a level just if the level holds both together, even if the level were over its
capacity. -/
theorem Level.le_remaining_iff {level : Level} {size : Nat} (occupied : 0 < size) :
    size ≤ level.remaining ↔ level.size + size ≤ level.capacity := by
  unfold remaining
  omega

namespace Emission

variable {context : Context} {text : String}

theorem takesAtOnce_of_buffered {level : Level} {rest : List Level} (levels : context.stack.levels = level :: rest)
    (occupied : 0 < text.utf8ByteSize) : context.TakesAtOnce text (append text context) := by
  have innermost : context.stack.innermost? = some level := by simp [BufferStack.innermost?, levels]
  by_cases room : level.size + text.utf8ByteSize ≤ level.capacity
  · have fits : context.Fits text := by
      simpa only [Context.Fits, levels, Level.le_remaining_iff occupied] using room
    obtain ⟨ok, state⟩ := append_of_buffered (by simp [levels]) fits
    simp only [Context.appended, levels] at state
    constructor
    case fits_iff => simp [innermost, ok, room]
    case extended =>
      intro other others shape _
      cases levels.symm.trans shape
      exact state
    case refused => simp [ok]
    case written | cut => simp [levels]
    case frame => constructor <;> simp [state, levels, Context.outline, BufferStack.bounds]
  · have crowded : level.remaining < text.utf8ByteSize := by
      rw [← Nat.not_le, Level.le_remaining_iff occupied]
      exact room
    obtain ⟨failed, state⟩ := append_of_crowded levels crowded
    constructor
    case fits_iff => simpa [innermost, failed] using room
    case extended => simp [failed]
    case refused => simp [innermost, failed, state]
    case written | cut => simp [levels]
    case frame => constructor <;> rw [state]

theorem takesAtOnce_of_unbuffered (unbuffered : context.stack.levels = []) (text : String) :
    context.TakesAtOnce text (append text context) := by
  have innermost : context.stack.innermost? = none := by simp [BufferStack.innermost?, unbuffered]
  rw [append_of_unbuffered unbuffered]
  constructor
  case fits_iff | refused => simp [innermost]
  case extended => simp [unbuffered]
  case written =>
    intro _ room
    have whole : context.stream.write text =
        (.ok (), { context.stream with written := context.stream.written ++ text.toUTF8 }) := by
      cases limited : context.stream.limit with
      | none => exact Stream.write_of_reliable limited text
      | some limit => exact Stream.write_of_fits limited (room limit limited)
    simp [write, whole]
  case cut =>
    intro _ limit limited short
    simp [write, Stream.write_of_short limited (Nat.not_le.mpr short)]
  case frame => constructor <;> rfl

theorem emit_apply (operation : Operation) (context : Context) :
    emit operation context = append (operation.text context.options.annotate) context :=
  Action.read_bind_apply _ context

/-- Every operation is emitted in one piece, whatever context it is emitted in. -/
theorem emitted_at_once (operation : Operation) (context : Context) :
    context.TakesAtOnce (operation.text context.options.annotate) (emit operation context) := by
  rw [emit_apply]
  cases levels : context.stack.levels with
  | nil => exact takesAtOnce_of_unbuffered levels _
  | cons level rest => exact takesAtOnce_of_buffered levels (operation.size_text_pos _)

-- The comment counts: of the 23 bytes that this operation needs, it takes eleven.
example : ((Operation.li .t1 (-3)).text true).utf8ByteSize = 23 := by decide +kernel

end Emission

end MipsBackend
