import MipsBackend.Proofs.Effects

/-! # Effects of the control constructs

The six control steps are short sequences of primitive steps. For each of them,

* `beginIf_yields` and its siblings tell what a successful step found on the stack and made of the
  context, in terms of the primitive effects;
* `beginIf_stops` and its siblings tell why a step on an unlimited stream fails: `refusal` when the
  innermost construct does not admit it, an exceeded limit otherwise.
-/

namespace MipsBackend

/-- Why a step that expects a kind of construct is refused by the open constructs. -/
def refusal (expected : ConstructKind) : List Construct → EmitError
  | [] => .emptyStack
  | innermost :: _ => .constructMismatch expected innermost.kind

namespace Emission

theorem topConstruct_yields {context after : Context} {construct : Construct}
    (yields : topConstruct.Yields context construct after) :
    (∃ rest, context.outline = construct :: rest) ∧ after = context := by
  obtain ⟨head, same⟩ := topConstruct_yields_iff.mp yields
  exact ⟨List.head?_eq_some_iff.mp head, same⟩

/-! ## What a successful step does -/

theorem beginIf_yields {cond : Reg} {context after : Context} {value : Unit}
    (yields : (beginIf cond).Yields context value after) :
    after =
      (context.numbered.numbered.appended
        (Operation.text context.options.annotate (.beq cond .zero ⟨context.labels.issued⟩))).opened
          (.conditional ⟨context.labels.issued⟩ ⟨context.labels.issued + 1⟩ false) := by
  simp only [beginIf, Action.yields_bind_iff, newLabel_yields_iff, push_yields_iff] at yields
  obtain ⟨_, _, ⟨rfl, rfl⟩, _, _, ⟨rfl, rfl⟩, _, _, emits, _, rfl⟩ := yields
  obtain ⟨_, rfl⟩ := emit_yields emits
  rfl

theorem beginElse_yields {context after : Context} {value : Unit}
    (yields : beginElse.Yields context value after) :
    ∃ elseLabel endLabel rest, context.outline = .conditional elseLabel endLabel false :: rest ∧
      after =
        ((context.appended (Operation.text context.options.annotate (.jump endLabel))).opened
          (.conditional elseLabel endLabel true)).appended
            (Operation.text context.options.annotate (.place elseLabel)) := by
  simp only [beginElse, Action.yields_bind_iff] at yields
  obtain ⟨construct, middle, tops, yields⟩ := yields
  obtain ⟨⟨rest, outline⟩, rfl⟩ := topConstruct_yields tops
  split at yields
  next elseLabel endLabel =>
    simp only [Action.yields_bind_iff, push_yields_iff] at yields
    obtain ⟨_, _, jumps, _, _, ⟨_, rfl⟩, places⟩ := yields
    obtain ⟨_, rfl⟩ := emit_yields jumps
    obtain ⟨_, rfl⟩ := emit_yields places
    exact ⟨elseLabel, endLabel, rest, outline, by simp [Context.opened]⟩
  next => cases Action.not_yields_fail yields

theorem endIf_yields {context after : Context} {value : Unit}
    (yields : endIf.Yields context value after) :
    (∃ elseLabel endLabel rest, context.outline = .conditional elseLabel endLabel true :: rest ∧
        2 ≤ context.stack.depth ∧ (context.merged 2).Closable ∧
        after = (context.merged 2).closed.appended
          (Operation.text context.options.annotate (.place endLabel))) ∨
      ∃ elseLabel endLabel rest, context.outline = .conditional elseLabel endLabel false :: rest ∧
        context.Closable ∧
        after = context.closed.appended (Operation.text context.options.annotate (.place elseLabel)) := by
  simp only [endIf, Action.yields_bind_iff] at yields
  obtain ⟨construct, middle, tops, yields⟩ := yields
  obtain ⟨⟨rest, outline⟩, rfl⟩ := topConstruct_yields tops
  split at yields
  next elseLabel endLabel =>
    simp only [Action.yields_bind_iff, merge_yields_iff] at yields
    -- An else level goes in two steps: it joins the level below, and that one is closed.
    obtain ⟨_, _, ⟨_, deep, _, _, rfl⟩, _, _, closes, places⟩ := yields
    obtain ⟨closable, _, rfl⟩ := close_yields closes
    obtain ⟨_, rfl⟩ := emit_yields places
    exact .inl ⟨elseLabel, endLabel, rest, outline, deep, closable, by simp [Context.merged]⟩
  next elseLabel endLabel =>
    simp only [Action.yields_bind_iff] at yields
    obtain ⟨_, _, closes, places⟩ := yields
    obtain ⟨closable, _, rfl⟩ := close_yields closes
    obtain ⟨_, rfl⟩ := emit_yields places
    exact .inr ⟨elseLabel, endLabel, rest, outline, closable, by simp⟩
  next => cases Action.not_yields_fail yields

theorem beginWhile_yields {context after : Context} {value : Unit}
    (yields : beginWhile.Yields context value after) :
    after =
      (context.numbered.numbered.opened
        (.loop ⟨context.labels.issued⟩ ⟨context.labels.issued + 1⟩)).appended
          (Operation.text context.options.annotate (.place ⟨context.labels.issued⟩)) := by
  simp only [beginWhile, Action.yields_bind_iff, newLabel_yields_iff, push_yields_iff] at yields
  obtain ⟨_, _, ⟨rfl, rfl⟩, _, _, ⟨rfl, rfl⟩, _, _, ⟨_, rfl⟩, places⟩ := yields
  exact (emit_yields places).2

theorem loopLabels_yields {context after : Context} {entryLabel exitLabel : Label}
    (yields : loopLabels.Yields context (entryLabel, exitLabel) after) :
    (∃ rest, context.outline = .loop entryLabel exitLabel :: rest) ∧ after = context := by
  simp only [loopLabels, Action.yields_bind_iff] at yields
  obtain ⟨construct, middle, tops, yields⟩ := yields
  obtain ⟨outline, rfl⟩ := topConstruct_yields tops
  split at yields
  next =>
    obtain ⟨labels, rfl⟩ := Action.yields_pure_iff.mp yields
    cases labels
    exact ⟨outline, rfl⟩
  next => cases Action.not_yields_fail yields

theorem loopTest_yields {cond : Reg} {context after : Context} {value : Unit}
    (yields : (loopTest cond).Yields context value after) :
    ∃ entryLabel exitLabel rest, context.outline = .loop entryLabel exitLabel :: rest ∧
      after = context.appended (Operation.text context.options.annotate (.beq cond .zero exitLabel)) := by
  simp only [loopTest, Action.yields_bind_iff] at yields
  obtain ⟨⟨entryLabel, exitLabel⟩, middle, labels, emits⟩ := yields
  obtain ⟨⟨rest, outline⟩, rfl⟩ := loopLabels_yields labels
  exact ⟨entryLabel, exitLabel, rest, outline, (emit_yields emits).2⟩

theorem endWhile_yields {context after : Context} {value : Unit}
    (yields : endWhile.Yields context value after) :
    ∃ entryLabel exitLabel rest released, context.outline = .loop entryLabel exitLabel :: rest ∧
      released =
        (context.appended (Operation.text context.options.annotate (.jump entryLabel))).appended
          (Operation.text context.options.annotate (.place exitLabel)) ∧
      released.Closable ∧ after = released.closed := by
  simp only [endWhile, Action.yields_bind_iff, Action.yields_pure_iff] at yields
  obtain ⟨⟨entryLabel, exitLabel⟩, middle, labels, _, _, jumps, _, _, places, _, _, closes, _, rfl⟩ := yields
  obtain ⟨⟨rest, outline⟩, rfl⟩ := loopLabels_yields labels
  obtain ⟨_, rfl⟩ := emit_yields jumps
  obtain ⟨_, rfl⟩ := emit_yields places
  obtain ⟨closable, _, rfl⟩ := close_yields closes
  exact ⟨entryLabel, exitLabel, rest, _, outline, by simp, closable, rfl⟩

/-! ## Why a step fails -/

theorem beginIf_stops {cond : Reg} {context after : Context} {error : EmitError}
    (reliable : context.stream.limit = none) (stops : (beginIf cond).Stops context error after) :
    error.isLimit = true := by
  simp only [beginIf, Action.stops_bind_iff, not_stops_newLabel, newLabel_yields_iff, false_or] at stops
  obtain ⟨_, _, ⟨rfl, rfl⟩, _, _, ⟨rfl, rfl⟩, emits | ⟨_, _, _, pushes⟩⟩ := stops
  · exact emit_stops (show context.numbered.numbered.stream.limit = none from reliable) emits
  · exact push_stops pushes

theorem beginElse_stops {context after : Context} {error : EmitError}
    (reliable : context.stream.limit = none) (stops : beginElse.Stops context error after) :
    match context.outline with
    | .conditional _ _ false :: _ => error.isLimit = true
    | outline => error = refusal .conditional outline := by
  simp only [beginElse, Action.stops_bind_iff] at stops
  obtain tops | ⟨construct, middle, tops, stops⟩ := stops
  · obtain ⟨outline, rfl, _⟩ := topConstruct_stops_iff.mp tops
    simp [outline, refusal]
  · obtain ⟨⟨rest, outline⟩, rfl⟩ := topConstruct_yields tops
    rw [outline]
    split at stops
    next elseLabel endLabel =>
      simp only [Action.stops_bind_iff] at stops
      obtain jumps | ⟨_, _, jumps, pushes | ⟨_, _, pushes, places⟩⟩ := stops
      · exact emit_stops reliable jumps
      · exact push_stops pushes
      · obtain ⟨_, rfl⟩ := emit_yields jumps
        obtain ⟨_, rfl⟩ := push_yields_iff.mp pushes
        exact emit_stops (by simpa [Context.opened] using reliable) places
    next other =>
      obtain ⟨rfl, _⟩ := Action.stops_fail_iff.mp stops
      match construct with
      | .conditional _ _ true | .loop _ _ => rfl
      | .conditional elseLabel endLabel false => exact absurd rfl (other elseLabel endLabel)

/-- An else level has the level of its conditional below it, which leaves limits as the only cause. -/
theorem endIf_stops {context after : Context} {error : EmitError}
    (reliable : context.stream.limit = none) (stops : endIf.Stops context error after) :
    match context.outline with
    | .conditional _ _ true :: below => below ≠ [] → error.isLimit = true
    | .conditional _ _ false :: _ => error.isLimit = true
    | outline => error = refusal .conditional outline := by
  simp only [endIf, Action.stops_bind_iff] at stops
  obtain tops | ⟨construct, middle, tops, stops⟩ := stops
  · obtain ⟨outline, rfl, _⟩ := topConstruct_stops_iff.mp tops
    simp [outline, refusal]
  · obtain ⟨⟨rest, outline⟩, rfl⟩ := topConstruct_yields tops
    rw [outline]
    split at stops
    next elseLabel endLabel =>
      intro below
      -- The merge is valid because the level of the first branch lies below.
      have deep : 2 ≤ middle.stack.depth := by
        have length := congrArg List.length outline
        have positive := List.length_pos_iff.mpr below
        simp only [Context.outline, List.length_map, List.length_cons] at length
        simp only [BufferStack.depth]
        omega
      simp only [Action.stops_bind_iff] at stops
      obtain merges | ⟨_, _, merges, closes | ⟨_, _, closes, places⟩⟩ := stops
      · exact merge_stops (Nat.le_refl 2) deep merges
      · obtain ⟨_, _, _, _, rfl⟩ := merge_yields_iff.mp merges
        refine (close_stops (by exact reliable) ?_ closes).1
        rw [Context.outline_merged (Nat.le_refl 2) deep, outline]
        simpa using below
      · obtain ⟨_, _, _, _, rfl⟩ := merge_yields_iff.mp merges
        obtain ⟨_, _, rfl⟩ := close_yields closes
        exact emit_stops (by simpa [Context.merged] using reliable) places
    next elseLabel endLabel =>
      simp only [Action.stops_bind_iff] at stops
      obtain closes | ⟨_, _, closes, places⟩ := stops
      · exact (close_stops reliable (by simp [outline]) closes).1
      · obtain ⟨_, _, rfl⟩ := close_yields closes
        exact emit_stops (by simpa using reliable) places
    next notElse notFirst =>
      obtain ⟨rfl, _⟩ := Action.stops_fail_iff.mp stops
      cases construct with
      | loop _ _ => rfl
      | conditional elseLabel endLabel inElse =>
        cases inElse with
        | true => exact absurd rfl (notElse elseLabel endLabel)
        | false => exact absurd rfl (notFirst elseLabel endLabel)

theorem beginWhile_stops {context after : Context} {error : EmitError}
    (reliable : context.stream.limit = none) (stops : beginWhile.Stops context error after) :
    error.isLimit = true := by
  simp only [beginWhile, Action.stops_bind_iff, not_stops_newLabel, newLabel_yields_iff, false_or] at stops
  obtain ⟨_, _, ⟨rfl, rfl⟩, _, _, ⟨rfl, rfl⟩, pushes | ⟨_, _, pushes, places⟩⟩ := stops
  · exact push_stops pushes
  · obtain ⟨_, rfl⟩ := push_yields_iff.mp pushes
    exact emit_stops (show (context.numbered.numbered.opened _).stream.limit = none from reliable) places

theorem loopLabels_stops {context after : Context} {error : EmitError}
    (stops : loopLabels.Stops context error after) :
    (∀ entryLabel exitLabel rest, context.outline ≠ .loop entryLabel exitLabel :: rest) ∧
      error = refusal .loop context.outline := by
  simp only [loopLabels, Action.stops_bind_iff] at stops
  obtain tops | ⟨construct, middle, tops, stops⟩ := stops
  · obtain ⟨outline, rfl, _⟩ := topConstruct_stops_iff.mp tops
    simp [outline, refusal]
  · obtain ⟨⟨rest, outline⟩, rfl⟩ := topConstruct_yields tops
    rw [outline]
    split at stops
    next => cases Action.not_stops_pure stops
    next other =>
      obtain ⟨rfl, _⟩ := Action.stops_fail_iff.mp stops
      refine ⟨?_, rfl⟩
      intro entryLabel exitLabel others same
      cases same
      exact other entryLabel exitLabel rfl

theorem loopTest_stops {cond : Reg} {context after : Context} {error : EmitError}
    (reliable : context.stream.limit = none) (stops : (loopTest cond).Stops context error after) :
    match context.outline with
    | .loop _ _ :: _ => error.isLimit = true
    | outline => error = refusal .loop outline := by
  simp only [loopTest, Action.stops_bind_iff] at stops
  obtain labels | ⟨⟨entryLabel, exitLabel⟩, middle, labels, emits⟩ := stops
  · obtain ⟨other, refused⟩ := loopLabels_stops labels
    split
    next outline => exact absurd outline (other _ _ _)
    next => exact refused
  · obtain ⟨⟨rest, outline⟩, rfl⟩ := loopLabels_yields labels
    rw [outline]
    exact emit_stops reliable emits

theorem endWhile_stops {context after : Context} {error : EmitError}
    (reliable : context.stream.limit = none) (stops : endWhile.Stops context error after) :
    match context.outline with
    | .loop _ _ :: _ => error.isLimit = true
    | outline => error = refusal .loop outline := by
  simp only [endWhile, Action.stops_bind_iff, Action.not_stops_pure, and_false, exists_false, or_false] at stops
  obtain labels | ⟨⟨entryLabel, exitLabel⟩, middle, labels, stops⟩ := stops
  · obtain ⟨other, refused⟩ := loopLabels_stops labels
    split
    next outline => exact absurd outline (other _ _ _)
    next => exact refused
  · obtain ⟨⟨rest, outline⟩, rfl⟩ := loopLabels_yields labels
    rw [outline]
    obtain jumps | ⟨_, _, jumps, places | ⟨_, _, places, closes⟩⟩ := stops
    · exact emit_stops reliable jumps
    · obtain ⟨_, rfl⟩ := emit_yields jumps
      exact emit_stops (by simpa using reliable) places
    · obtain ⟨_, rfl⟩ := emit_yields jumps
      obtain ⟨_, rfl⟩ := emit_yields places
      exact (close_stops (by simpa using reliable) (by simp [outline]) closes).1

end Emission

end MipsBackend
