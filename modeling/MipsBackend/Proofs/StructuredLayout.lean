import MipsBackend.Proofs.ControlEffects
import MipsBackend.Proofs.Reachability
import MipsBackend.Structured.Program

/-! # Structured programs that fit

* `Context.Gains`: all that generating a program changes is the text where text goes, the label counter and
  the stock of spare buffers.
* `Context.Admits`: there is room for a text, below and for a number of levels.
* `Program.emit_gains`: a context that admits a program gains its layout.

Closing or merging a level on top of a context turns what the level gained into a gain of the context, so the
levels of a construct disappear from the account one by one.
-/

namespace MipsBackend

/-! ## Gains -/

namespace Context

/-- The context with a text added, labels handed out and other spare buffers. -/
def gaining (context : Context) (text : String) (count : Nat) (spare : List String) : Context :=
  { context.appended text with
    labels := ⟨context.labels.issued + count⟩
    stack := { (context.appended text).stack with spare } }

def Gains (context : Context) (text : String) (count : Nat) (after : Context) : Prop :=
  ∃ spare, after = context.gaining text count spare

theorem gains_appended (context : Context) (text : String) :
    context.Gains text 0 (context.appended text) := by
  refine ⟨context.stack.spare, ?_⟩
  unfold gaining appended
  split <;> rfl

theorem appended_nothing (context : Context) : context.appended "" = context := by
  obtain ⟨stream, pool, ⟨levels, maxDepth, bufferCapacity, spare⟩, labels, options⟩ := context
  cases levels <;> simp [appended, Level.extend]

theorem gains_nothing (context : Context) : context.Gains "" 0 context := by
  have gains := context.gains_appended ""
  rwa [appended_nothing] at gains

theorem gains_numbered (context : Context) : context.Gains "" 2 context.numbered.numbered := by
  refine ⟨context.stack.spare, ?_⟩
  rw [gaining, appended_nothing]
  rfl

theorem gaining_gaining (context : Context) (first second : String) (count more : Nat) (spare other : List String) :
    (context.gaining first count spare).gaining second more other =
      context.gaining (first ++ second) (count + more) other := by
  cases levels : context.stack.levels with
  | nil => simp [gaining, appended, levels, ByteArray.append_assoc, Nat.add_assoc]
  | cons level rest => simp [gaining, appended, levels, Level.extend, String.append_assoc, Nat.add_assoc]

namespace Gains

variable {context between after : Context} {text : String} {count : Nat}

theorem trans {more : String} {others : Nat} (first : context.Gains text count between)
    (second : between.Gains more others after) : context.Gains (text ++ more) (count + others) after := by
  obtain ⟨spare, rfl⟩ := first
  obtain ⟨other, rfl⟩ := second
  exact ⟨other, gaining_gaining ..⟩

theorem options_eq (gains : context.Gains text count after) : after.options = context.options := by
  obtain ⟨spare, rfl⟩ := gains
  simp [gaining]

theorem issued_eq (gains : context.Gains text count after) :
    after.labels.issued = context.labels.issued + count := by
  obtain ⟨spare, rfl⟩ := gains
  rfl

theorem levels_eq (gains : context.Gains text count after) :
    after.stack.levels = (context.appended text).stack.levels := by
  obtain ⟨spare, rfl⟩ := gains
  rfl

theorem outline_eq (gains : context.Gains text count after) : after.outline = context.outline := by
  obtain ⟨spare, rfl⟩ := gains
  exact context.outline_appended text

/-- Closing a level gives what it gained to the context below it. -/
theorem closed {construct : Construct} (gains : (context.opened construct).Gains text count after) :
    context.Gains text count after.closed := by
  obtain ⟨spare, rfl⟩ := gains
  refine ⟨"" :: spare, ?_⟩
  -- What encloses the level is the stream in the first case and another level in the second.
  cases levels : context.stack.levels with
  | nil => simp [gaining, appended, Context.closed, opened, levels, Level.extend]
  | cons level rest => simp [gaining, appended, Context.closed, opened, BufferStack.absorbed, levels, Level.extend]

/-- So does merging it with the level below it, if there is one. -/
theorem merged {construct : Construct} (buffered : context.stack.levels ≠ [])
    (gains : (context.opened construct).Gains text count after) : context.Gains text count (after.merged 2) := by
  obtain ⟨spare, rfl⟩ := gains
  refine ⟨"" :: spare, ?_⟩
  cases levels : context.stack.levels with
  | nil => exact absurd levels buffered
  | cons level rest =>
    simp [gaining, appended, Context.merged, opened, BufferStack.absorbedTimes, BufferStack.absorbed, levels,
      Level.extend]

end Gains

/-! ## Room for a program -/

/-- Whether a text has room where text goes now and in a level of its own, with `depth` levels left to open. -/
structure Admits (context : Context) (depth : Nat) (text : String) : Prop where
  reliable : context.stream.limit = none
  deep : context.stack.depth + depth ≤ context.stack.maxDepth
  small : text.utf8ByteSize ≤ context.stack.bufferCapacity
  room : context.Fits text

theorem fits_append_iff {context : Context} {first second : String} :
    context.Fits (first ++ second) ↔ context.Fits first ∧ (context.appended first).Fits second := by
  cases levels : context.stack.levels with
  | nil => simp [Fits, appended, levels]
  | cons level rest =>
    simp only [Fits, appended, levels, String.utf8ByteSize_append, Level.remaining, Level.size_extend,
      Level.capacity_extend]
    omega

namespace Admits

variable {context after : Context} {depth count : Nat} {text rest : String}

theorem left (admits : context.Admits depth (text ++ rest)) : context.Admits depth text where
  reliable := admits.reliable
  deep := admits.deep
  small := by
    have small := admits.small
    rw [String.utf8ByteSize_append] at small
    omega
  room := (fits_append_iff.mp admits.room).1

theorem fewer (admits : context.Admits depth text) (lower : Nat) (below : lower ≤ depth) :
    context.Admits lower text where
  reliable := admits.reliable
  deep := by
    have deep := admits.deep
    omega
  small := admits.small
  room := admits.room

theorem gained (admits : context.Admits depth (text ++ rest)) (gains : context.Gains text count after) :
    after.Admits depth rest := by
  obtain ⟨spare, rfl⟩ := gains
  obtain ⟨reliable, deep, small, room⟩ := admits
  have roomLeft := (fits_append_iff.mp room).2
  rw [String.utf8ByteSize_append] at small
  cases levels : context.stack.levels with
  | nil =>
    simp only [BufferStack.depth, levels, List.length_nil] at deep
    exact ⟨by simpa [gaining] using reliable, by simpa [gaining, appended, levels, BufferStack.depth] using deep,
      by simp only [gaining, appended, levels]; omega, by simp [gaining, appended, levels, Fits]⟩
  | cons level others =>
    simp only [BufferStack.depth, levels, List.length_cons] at deep
    exact ⟨by simpa [gaining] using reliable, by simpa [gaining, appended, levels, BufferStack.depth] using deep,
      by simp only [gaining, appended, levels]; omega,
      by simpa [gaining, appended, levels, Fits] using roomLeft⟩

theorem appended (admits : context.Admits depth (text ++ rest)) : (context.appended text).Admits depth rest :=
  admits.gained (context.gains_appended text)

theorem numbered (admits : context.Admits depth text) : context.numbered.numbered.Admits depth text :=
  ⟨admits.reliable, admits.deep, admits.small, admits.room⟩

theorem opened (admits : context.Admits (depth + 1) text) (construct : Construct) :
    (context.opened construct).Admits depth text where
  reliable := admits.reliable
  deep := by
    have deep := admits.deep
    simp only [Context.opened, BufferStack.depth, List.length_cons] at deep ⊢
    omega
  small := admits.small
  room := by simpa [Context.opened, Fits, Level.remaining, Level.size] using admits.small

theorem canOpen (admits : context.Admits (depth + 1) text) :
    context.stack.depth < context.stack.maxDepth := by
  have deep := admits.deep
  omega

end Admits

end Context

/-! ## Levels that are opened and go again -/

namespace Emission

open Context

variable {context after : Context} {text : String} {count depth : Nat} {construct : Construct}

theorem emit_of_admits {operation : Operation} {annotate : Bool}
    (style : context.options.annotate = annotate) (admits : context.Admits depth (operation.text annotate)) :
    (emit operation).Yields context () (context.appended (operation.text annotate)) := by
  subst style
  exact (emit_yields_iff admits.reliable).mpr ⟨admits.room, rfl⟩

theorem close_of_gains (admits : context.Admits depth text)
    (gains : (context.opened construct).Gains text count after) :
    close.Yields after construct after.closed := by
  obtain ⟨spare, rfl⟩ := gains
  have reliable : ((context.opened construct).gaining text count spare).stream.limit = none := by
    simpa [gaining, Context.opened] using admits.reliable
  refine (close_yields_iff reliable).mpr ⟨?_, by simp [gaining, outline, appended, Context.opened], rfl⟩
  have room := admits.room
  cases levels : context.stack.levels with
  | nil => simp [Closable, gaining, appended, Context.opened, levels]
  | cons level rest =>
    simpa [Fits, Closable, BufferStack.Absorbs, gaining, appended, Context.opened, levels, Level.size] using room

theorem merge_of_gains {level : Level} {rest : List Level} (levels : context.stack.levels = level :: rest)
    (fits : level.size + text.utf8ByteSize ≤ context.stack.bufferCapacity) (room : context.Fits text)
    (gains : (context.opened construct).Gains text count after) :
    (merge 2).Yields after () (after.merged 2) := by
  obtain ⟨spare, rfl⟩ := gains
  refine merge_yields_iff.mpr ⟨Nat.le_refl 2, ?_, ?_, ?_, rfl⟩
  · simp [gaining, appended, Context.opened, levels, BufferStack.depth]
  · simp only [gaining, appended, Context.opened, levels, BufferStack.innermostSize, List.take, Level.totalSize,
      Level.size, Level.text_extend, String.empty_append] at fits ⊢
    omega
  · intro done below
    obtain rfl : done = 0 := by omega
    simpa [Fits, BufferStack.absorbedTimes, BufferStack.Absorbs, gaining, appended, Context.opened, levels,
      Level.size] using room

/-! ## Control steps that have room -/

variable {annotate : Bool} {base : Nat} {cond : Reg} {rest : String} {elseLabel endLabel entryLabel exitLabel : Label}

theorem beginIf_of_admits (style : context.options.annotate = annotate) (counter : context.labels.issued = base)
    (admits : context.Admits (depth + 1) ((Operation.beq cond .zero ⟨base⟩).text annotate ++ rest)) :
    (beginIf cond).Yields context ()
      ((context.numbered.numbered.appended ((Operation.beq cond .zero ⟨base⟩).text annotate)).opened
        (.conditional ⟨base⟩ ⟨base + 1⟩ false)) := by
  subst counter
  simp only [beginIf, Action.yields_bind_iff, newLabel_yields_iff, push_yields_iff]
  exact ⟨_, _, ⟨rfl, rfl⟩, _, _, ⟨rfl, rfl⟩, (), _, emit_of_admits style admits.numbered.left,
    admits.numbered.appended.canOpen, rfl⟩

theorem beginElse_of_admits {constructs : List Construct} (style : context.options.annotate = annotate)
    (outline : context.outline = .conditional elseLabel endLabel false :: constructs)
    (admits : context.Admits (depth + 1)
      ((Operation.jump endLabel).text annotate ++ ((Operation.place elseLabel).text annotate ++ rest))) :
    beginElse.Yields context ()
      (((context.appended ((Operation.jump endLabel).text annotate)).opened
        (.conditional elseLabel endLabel true)).appended ((Operation.place elseLabel).text annotate)) := by
  simp only [beginElse, Action.yields_bind_iff, topConstruct_yields_iff]
  refine ⟨_, _, ⟨by rw [outline]; rfl, rfl⟩, ?_⟩
  simp only [Action.yields_bind_iff, push_yields_iff]
  have opened := admits.appended.opened (.conditional elseLabel endLabel true)
  exact ⟨(), _, emit_of_admits style admits.left, (), _, ⟨admits.appended.canOpen, rfl⟩,
    emit_of_admits (by simpa using style) opened.left⟩

theorem endIf_of_gains (style : context.options.annotate = annotate)
    (admits : context.Admits depth (text ++ (Operation.place elseLabel).text annotate))
    (gains : (context.opened (.conditional elseLabel endLabel false)).Gains text count after) :
    ∃ last, endIf.Yields after () last ∧
      context.Gains (text ++ (Operation.place elseLabel).text annotate) count last := by
  have kept := gains.closed
  refine ⟨after.closed.appended ((Operation.place elseLabel).text annotate), ?_, kept.trans (gains_appended ..)⟩
  have top : after.outline.head? = some (.conditional elseLabel endLabel false) := by
    simp [gains.outline_eq]
  simp only [endIf, Action.yields_bind_iff, topConstruct_yields_iff]
  refine ⟨_, _, ⟨top, rfl⟩, ?_⟩
  simp only [Action.yields_bind_iff]
  exact ⟨_, _, close_of_gains admits.left gains, emit_of_admits (by rw [kept.options_eq, style]) (admits.gained kept)⟩

/-- The second part lies on a level above the first and is merged into it before both are closed. -/
theorem endIf_of_gains_twice {between : Context} {second : String} {more : Nat}
    (style : context.options.annotate = annotate)
    (admits : context.Admits depth ((text ++ second) ++ (Operation.place endLabel).text annotate))
    (first : (context.opened (.conditional elseLabel endLabel false)).Gains text count between)
    (gains : (between.opened (.conditional elseLabel endLabel true)).Gains second more after) :
    ∃ last, endIf.Yields after () last ∧
      context.Gains ((text ++ second) ++ (Operation.place endLabel).text annotate) (count + more) last := by
  -- Below the second part lies the level of the first, with nothing but the first part in it.
  have levels : between.stack.levels =
      ⟨.conditional elseLabel endLabel false, text, context.stack.bufferCapacity⟩ :: context.stack.levels := by
    simp [first.levels_eq, appended, Context.opened, Level.extend]
  have capacity : between.stack.bufferCapacity = context.stack.bufferCapacity := by
    obtain ⟨spare, rfl⟩ := first
    simp [gaining, appended, Context.opened]
  have small := admits.left.small
  rw [String.utf8ByteSize_append] at small
  -- The level of the first part has room for both, because the layout fits one level as a whole.
  have room : between.Fits second := by
    simp only [Fits, levels, Level.remaining, Level.size]
    omega
  have merged := gains.merged (by rw [levels]; simp)
  have kept := (first.trans merged).closed
  refine ⟨(after.merged 2).closed.appended ((Operation.place endLabel).text annotate), ?_,
    kept.trans (gains_appended ..)⟩
  have top : after.outline.head? = some (.conditional elseLabel endLabel true) := by
    simp [gains.outline_eq]
  simp only [endIf, Action.yields_bind_iff, topConstruct_yields_iff]
  refine ⟨_, _, ⟨top, rfl⟩, ?_⟩
  simp only [Action.yields_bind_iff]
  refine ⟨(), _, merge_of_gains levels (by rwa [capacity]) room gains, _, _,
    close_of_gains admits.left (first.trans merged), ?_⟩
  exact emit_of_admits (by rw [kept.options_eq, style]) (admits.gained kept)

theorem beginWhile_of_admits (style : context.options.annotate = annotate)
    (counter : context.labels.issued = base)
    (admits : context.Admits (depth + 1) ((Operation.place ⟨base⟩).text annotate ++ rest)) :
    beginWhile.Yields context ()
      ((context.numbered.numbered.opened (.loop ⟨base⟩ ⟨base + 1⟩)).appended
        ((Operation.place ⟨base⟩).text annotate)) := by
  subst counter
  simp only [beginWhile, Action.yields_bind_iff, newLabel_yields_iff, push_yields_iff]
  have opened := admits.numbered.opened (.loop ⟨context.labels.issued⟩ ⟨context.labels.issued + 1⟩)
  exact ⟨_, _, ⟨rfl, rfl⟩, _, _, ⟨rfl, rfl⟩, (), _, ⟨admits.numbered.canOpen, rfl⟩, emit_of_admits style opened.left⟩

theorem loopLabels_of_outline {constructs : List Construct}
    (outline : context.outline = .loop entryLabel exitLabel :: constructs) :
    loopLabels.Yields context (entryLabel, exitLabel) context := by
  simp only [loopLabels, Action.yields_bind_iff, topConstruct_yields_iff]
  exact ⟨_, _, ⟨by rw [outline]; rfl, rfl⟩, Action.yields_pure_iff.mpr ⟨rfl, rfl⟩⟩

theorem loopTest_of_admits {constructs : List Construct} (style : context.options.annotate = annotate)
    (outline : context.outline = .loop entryLabel exitLabel :: constructs)
    (admits : context.Admits depth ((Operation.beq cond .zero exitLabel).text annotate)) :
    (loopTest cond).Yields context () (context.appended ((Operation.beq cond .zero exitLabel).text annotate)) := by
  simp only [loopTest, Action.yields_bind_iff]
  exact ⟨_, _, loopLabels_of_outline outline, emit_of_admits style admits⟩

theorem endWhile_of_gains (style : context.options.annotate = annotate)
    (admits : context.Admits (depth + 1)
      (text ++ ((Operation.jump entryLabel).text annotate ++ (Operation.place exitLabel).text annotate)))
    (gains : (context.opened (.loop entryLabel exitLabel)).Gains text count after) :
    ∃ last, endWhile.Yields after () last ∧
      context.Gains
        (text ++ ((Operation.jump entryLabel).text annotate ++ (Operation.place exitLabel).text annotate))
        count last := by
  have inner := (admits.opened (.loop entryLabel exitLabel)).gained gains
  have styled : after.options.annotate = annotate := by rw [gains.options_eq]; exact style
  have jumped := after.gains_appended ((Operation.jump entryLabel).text annotate)
  have filled := gains.trans (jumped.trans (gains_appended _ ((Operation.place exitLabel).text annotate)))
  have outline : after.outline = .loop entryLabel exitLabel :: context.outline := by
    simp [gains.outline_eq]
  refine ⟨_, ?_, filled.closed⟩
  simp only [endWhile, Action.yields_bind_iff]
  exact ⟨_, _, loopLabels_of_outline outline, (), _, emit_of_admits styled inner.left, (), _,
    emit_of_admits (by simpa using styled) inner.appended, _, _, close_of_gains admits filled, rfl, rfl⟩

end Emission

/-! ## Layouts -/

namespace Program

variable {annotate : Bool} {base : Nat}

theorem layout_eq_allText (program : Program) :
    program.layout annotate base = Operation.allText annotate (program.operations base) := rfl

theorem layout_basic {operation : Operation} {isBasic : operation.isBasic = true} :
    (basic operation isBasic).layout annotate base = operation.text annotate := by
  simp [layout_eq_allText, operations]

theorem layout_seq {first second : Program} :
    (seq first second).layout annotate base =
      first.layout annotate base ++ second.layout annotate (base + first.labelCount) := by
  simp [layout_eq_allText, operations, Operation.allText_append]

theorem layout_ifThen {cond : Reg} {body : Program} :
    (ifThen cond body).layout annotate base =
      (Operation.beq cond .zero ⟨base⟩).text annotate ++
        (body.layout annotate (base + 2) ++ (Operation.place ⟨base⟩).text annotate) := by
  simp [layout_eq_allText, operations, Operation.allText_append]

theorem layout_ifElse {cond : Reg} {first second : Program} :
    (ifElse cond first second).layout annotate base =
      (Operation.beq cond .zero ⟨base⟩).text annotate ++
        (((first.layout annotate (base + 2) ++ (Operation.jump ⟨base + 1⟩).text annotate) ++
          ((Operation.place ⟨base⟩).text annotate ++
            second.layout annotate (base + 2 + first.labelCount))) ++
          (Operation.place ⟨base + 1⟩).text annotate) := by
  simp [layout_eq_allText, operations, Operation.allText_append, String.append_assoc]

theorem layout_whileLoop {test : Program} {cond : Reg} {body : Program} :
    (whileLoop test cond body).layout annotate base =
      ((Operation.place ⟨base⟩).text annotate ++ (test.layout annotate (base + 2) ++
        ((Operation.beq cond .zero ⟨base + 1⟩).text annotate ++
          body.layout annotate (base + 2 + test.labelCount)))) ++
        ((Operation.jump ⟨base⟩).text annotate ++ (Operation.place ⟨base + 1⟩).text annotate) := by
  simp [layout_eq_allText, operations, Operation.allText_append, String.append_assoc]

/-! ## Programs -/

theorem emit_gains {program : Program} {context : Context} (style : context.options.annotate = annotate)
    (counter : context.labels.issued = base)
    (admits : context.Admits program.nesting (program.layout annotate base)) :
    ∃ after, program.emit.Yields context () after ∧
      context.Gains (program.layout annotate base) program.labelCount after := by
  induction program generalizing context base with
  | skip => exact ⟨context, Action.yields_pure_iff.mpr ⟨rfl, rfl⟩, context.gains_nothing⟩
  | basic operation isBasic =>
    rw [layout_basic] at admits ⊢
    exact ⟨_, Emission.emit_of_admits style admits, context.gains_appended _⟩
  | seq first second firstGains secondGains =>
    rw [layout_seq] at admits ⊢
    simp only [nesting] at admits
    obtain ⟨between, firstYields, begun⟩ := firstGains style counter (admits.left.fewer _ (Nat.le_max_left ..))
    obtain ⟨after, secondYields, ended⟩ := secondGains (by rw [begun.options_eq, style])
      (by rw [begun.issued_eq, counter]) ((admits.gained begun).fewer _ (Nat.le_max_right ..))
    exact ⟨after, Action.yields_bind_iff.mpr ⟨(), between, firstYields, secondYields⟩, begun.trans ended⟩
  | ifThen cond body bodyGains =>
    rw [layout_ifThen] at admits ⊢
    rw [nesting, Nat.add_comm] at admits
    have begins := Emission.beginIf_of_admits style counter admits
    have entered := context.numbered.numbered.gains_appended
      ((Operation.beq cond .zero ⟨base⟩).text annotate)
    have inside := admits.numbered.gained entered
    obtain ⟨filled, bodyYields, bodyText⟩ := bodyGains (by simpa using style) (by simp [counter])
      (inside.left.opened (.conditional ⟨base⟩ ⟨base + 1⟩ false))
    obtain ⟨last, ends, ended⟩ := Emission.endIf_of_gains (by simpa using style) inside bodyText
    refine ⟨last, ?_, ?_⟩
    · simp only [emit, Action.yields_bind_iff]
      exact ⟨(), _, begins, (), _, bodyYields, ends⟩
    · simpa [labelCount] using context.gains_numbered.trans (entered.trans ended)
  | ifElse cond first second firstGains secondGains =>
    rw [layout_ifElse] at admits ⊢
    have deep := admits.fewer (max first.nesting (second.nesting + 1) + 1) (by rw [nesting]; omega)
    have begins := Emission.beginIf_of_admits style counter deep
    have entered := context.numbered.numbered.gains_appended
      ((Operation.beq cond .zero ⟨base⟩).text annotate)
    have inside := deep.numbered.gained entered
    -- The level of the first part has room for both, since the second is merged into it.
    have level := inside.left.opened (.conditional ⟨base⟩ ⟨base + 1⟩ false)
    rw [String.append_assoc] at level
    obtain ⟨filled, firstYields, firstText⟩ := firstGains (by simpa using style) (by simp [counter])
      (level.left.fewer _ (Nat.le_max_left ..))
    have turning := (level.gained firstText).fewer _ (Nat.le_max_right ..)
    have styled : filled.options.annotate = annotate := by rw [firstText.options_eq]; simpa using style
    have outline : filled.outline = .conditional ⟨base⟩ ⟨base + 1⟩ false :: context.outline := by
      simp [firstText.outline_eq]
    have switches := Emission.beginElse_of_admits styled outline turning
    have jumped := filled.gains_appended ((Operation.jump ⟨base + 1⟩).text annotate)
    have upper := (turning.gained jumped).opened (.conditional ⟨base⟩ ⟨base + 1⟩ true)
    have placed := Context.gains_appended
      ((filled.appended ((Operation.jump ⟨base + 1⟩).text annotate)).opened (.conditional ⟨base⟩ ⟨base + 1⟩ true))
      ((Operation.place ⟨base⟩).text annotate)
    obtain ⟨refilled, secondYields, secondText⟩ := secondGains (by simpa using styled)
      (by simp [firstText.issued_eq, counter]) (upper.gained placed)
    obtain ⟨last, ends, ended⟩ := Emission.endIf_of_gains_twice (by simpa using style) inside
      (firstText.trans jumped) (placed.trans secondText)
    refine ⟨last, ?_, ?_⟩
    · simp only [emit, Action.yields_bind_iff]
      exact ⟨(), _, begins, (), _, firstYields, (), _, switches, (), _, secondYields, ends⟩
    · simpa [labelCount, Nat.add_assoc] using context.gains_numbered.trans (entered.trans ended)
  | whileLoop test cond body testGains bodyGains =>
    rw [layout_whileLoop] at admits ⊢
    rw [nesting, Nat.add_comm] at admits
    have begins := Emission.beginWhile_of_admits style counter admits.left
    have level := admits.left.numbered.opened (.loop ⟨base⟩ ⟨base + 1⟩)
    have placed := Context.gains_appended (context.numbered.numbered.opened (.loop ⟨base⟩ ⟨base + 1⟩))
      ((Operation.place ⟨base⟩).text annotate)
    -- Test, branch and body lie on the level of the loop, one behind the other.
    have testing := level.gained placed
    obtain ⟨tested, testYields, testText⟩ := testGains (by simpa using style) (by simp [counter])
      (testing.left.fewer _ (Nat.le_max_left ..))
    have choosing := testing.gained testText
    have styled : tested.options.annotate = annotate := by rw [testText.options_eq]; simpa using style
    have outline : tested.outline = .loop ⟨base⟩ ⟨base + 1⟩ :: context.outline := by
      simp [testText.outline_eq]
    have decides := Emission.loopTest_of_admits styled outline choosing.left
    have chosen := tested.gains_appended ((Operation.beq cond .zero ⟨base + 1⟩).text annotate)
    obtain ⟨filled, bodyYields, bodyText⟩ := bodyGains (by simpa using styled)
      (by simp [testText.issued_eq, counter]) ((choosing.gained chosen).fewer _ (Nat.le_max_right ..))
    obtain ⟨last, ends, ended⟩ := Emission.endWhile_of_gains (by simpa using style) admits.numbered
      (placed.trans (testText.trans (chosen.trans bodyText)))
    refine ⟨last, ?_, ?_⟩
    · simp only [emit, Action.yields_bind_iff]
      exact ⟨(), _, begins, (), _, testYields, (), _, decides, (), _, bodyYields, ends⟩
    · simpa [labelCount, Nat.add_assoc] using context.gains_numbered.trans ended

/-- Counts down to zero and prints the numbers, or the end of a line where another register says so. -/
def countdown : Program :=
  .whileLoop (.basic (.opImm .sub .t0 .t0 1) rfl) .t0
    (.ifElse .t1 (.basic .writeNewline rfl) (.ifThen .t0 (.basic (.writeReg .t0) rfl)))

end Program

end MipsBackend
