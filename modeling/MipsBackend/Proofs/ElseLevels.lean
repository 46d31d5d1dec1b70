import MipsBackend.Proofs.TextConservation

/-! # Else levels

A second branch has a level of its own, on the level of its conditional. The end of the conditional merges the two
without a look at the lower one, so it relies on finding there what belongs to it. Sessions that leave opening,
merging and closing to the control steps can rely on it, whatever fails on the way: a control step that stops halfway
opens one level too few, or removes levels of its own construct only.

* `Seated`: every else level lies on the level of its own conditional.
* `Level.Sheds`: how levels change when some of the innermost ones go.
* `Context.Shifts`: what a step can make of the open constructs; every invariant here is derived from it.
* `session_keeps_else_levels_seated`: every session without raw operations on levels, on any stream.
-/

namespace MipsBackend

/-! ## Constructs and their levels -/

namespace Construct

/-- The jump targets of a construct. -/
def labels : Construct → List Label
  | conditional elseLabel endLabel _ => [elseLabel, endLabel]
  | loop entryLabel exitLabel => [entryLabel, exitLabel]

/-- Whether a level is the first one of its construct. A conditional has a second one for its else branch. -/
def isFirst : Construct → Bool
  | conditional _ _ inElse => !inElse
  | loop _ _ => true

/-- The levels of a conditional whose innermost level is the given one, innermost first. -/
def ownLevels : Construct → List Construct
  | conditional elseLabel endLabel true =>
    [conditional elseLabel endLabel true, conditional elseLabel endLabel false]
  | conditional elseLabel endLabel false => [conditional elseLabel endLabel false]
  | loop _ _ => []

end Construct

/-- Every else level lies directly on the first level of its conditional. Levels stand innermost first. -/
inductive Seated : List Construct → Prop
  | nil : Seated []
  | first {construct : Construct} {outer : List Construct} (isFirst : construct.isFirst = true)
      (seated : Seated outer) : Seated (construct :: outer)
  | second {elseLabel endLabel : Label} {outer : List Construct}
      (seated : Seated (.conditional elseLabel endLabel false :: outer)) :
      Seated (.conditional elseLabel endLabel true :: .conditional elseLabel endLabel false :: outer)

/-- The labels of the open constructs, each construct counted once. -/
def openLabels (outline : List Construct) : List Label :=
  (outline.filter Construct.isFirst).flatMap Construct.labels

namespace Seated

variable {outline outer : List Construct}

theorem tail {construct : Construct} (seated : Seated (construct :: outer)) : Seated outer := by
  cases seated with
  | first _ seated => exact seated
  | second seated => exact seated

/-- Inner levels may go. -/
theorem suffix (seated : Seated outline) (isSuffix : outer <:+ outline) : Seated outer := by
  obtain ⟨gone, rfl⟩ := isSuffix
  induction gone with
  | nil => exact seated
  | cons construct gone ih => exact ih seated.tail

theorem below_of_second {elseLabel endLabel : Label} (seated : Seated (.conditional elseLabel endLabel true :: outer)) :
    ∃ rest, outer = .conditional elseLabel endLabel false :: rest := by
  cases seated with
  | first isFirst _ => cases isFirst
  | second _ => exact ⟨_, rfl⟩

theorem getElem? (seated : Seated outline) {index : Nat} {elseLabel endLabel : Label}
    (isElse : outline[index]? = some (.conditional elseLabel endLabel true)) :
    outline[index + 1]? = some (.conditional elseLabel endLabel false) := by
  have isDrop : outline.drop index = .conditional elseLabel endLabel true :: outline.drop (index + 1) := by
    obtain ⟨within, isAt⟩ := List.getElem?_eq_some_iff.mp isElse
    rw [List.drop_eq_getElem_cons within, isAt]
  have above := seated.suffix (List.drop_suffix index outline)
  rw [isDrop] at above
  obtain ⟨rest, below⟩ := above.below_of_second
  have head := congrArg List.head? below
  simpa using head

/-- The levels of a conditional lie on one another. -/
theorem ownLevels_prefix {construct : Construct} (seated : Seated (construct :: outer)) :
    construct.ownLevels <+: construct :: outer := by
  match construct with
  | .loop _ _ => exact List.nil_prefix
  | .conditional elseLabel endLabel false => exact ⟨outer, rfl⟩
  | .conditional elseLabel endLabel true =>
    obtain ⟨rest, rfl⟩ := seated.below_of_second
    exact ⟨rest, rfl⟩

end Seated

theorem openLabels_sublist {outer outline : List Construct} (isSuffix : outer <:+ outline) :
    (openLabels outer).Sublist (openLabels outline) := by
  obtain ⟨gone, rfl⟩ := isSuffix
  rw [openLabels, openLabels, List.filter_append, List.flatMap_append]
  exact List.sublist_append_right _ _

theorem openLabels_first {construct : Construct} (outline : List Construct) (isFirst : construct.isFirst = true) :
    openLabels (construct :: outline) = construct.labels ++ openLabels outline := by
  simp [openLabels, isFirst]

theorem openLabels_second (elseLabel endLabel : Label) (outline : List Construct) :
    openLabels (.conditional elseLabel endLabel true :: outline) = openLabels outline := by
  simp [openLabels, Construct.isFirst]

/-! ## What a step makes of the open constructs -/

/-- What holds of the open constructs between the steps of a session. -/
structure Context.Orderly (context : Context) : Prop where
  seated : Seated context.outline
  distinct : (openLabels context.outline).Nodup
  /-- A label that is handed out next is on no open construct. -/
  issued : ∀ label ∈ openLabels context.outline, label.id < context.labels.issued

/-- What a step can make of the open constructs, whether it succeeds or fails. -/
inductive Context.Shifts (before after : Context) : Prop
  /-- Some of the innermost levels went, or none. -/
  | shrinks (outline : after.outline <:+ before.outline) (issued : before.labels.issued ≤ after.labels.issued)
  /-- A construct was opened with new labels. -/
  | opens (construct : Construct) (isFirst : construct.isFirst = true)
      (labels : construct.labels = [⟨before.labels.issued⟩, ⟨before.labels.issued + 1⟩])
      (outline : after.outline = construct :: before.outline)
      (issued : after.labels.issued = before.labels.issued + 2)
  /-- The innermost conditional got its second level. -/
  | divides (elseLabel endLabel : Label) (outer : List Construct)
      (top : before.outline = .conditional elseLabel endLabel false :: outer)
      (outline : after.outline = .conditional elseLabel endLabel true :: before.outline)
      (issued : before.labels.issued ≤ after.labels.issued)
  | clears (outline : after.outline = [])

theorem Context.Shifts.orderly {before after : Context} (shifts : before.Shifts after) (orderly : before.Orderly) :
    after.Orderly := by
  cases shifts with
  | shrinks outline issued =>
    have fewer := openLabels_sublist outline
    refine ⟨orderly.seated.suffix outline, orderly.distinct.sublist fewer, ?_⟩
    intro label isOpen
    exact Nat.lt_of_lt_of_le (orderly.issued label (fewer.subset isOpen)) issued
  | opens construct isFirst labels outline issued =>
    have all : openLabels after.outline =
        [⟨before.labels.issued⟩, ⟨before.labels.issued + 1⟩] ++ openLabels before.outline := by
      rw [outline, openLabels_first _ isFirst, labels]
    refine ⟨?_, ?_, ?_⟩
    · rw [outline]
      exact .first isFirst orderly.seated
    · rw [all]
      apply List.nodup_append.mpr
      refine ⟨by simp, orderly.distinct, ?_⟩
      -- The new labels are beyond all that are open.
      intro label isNew old isOpen same
      have lower := orderly.issued old isOpen
      obtain rfl | rfl : label = ⟨before.labels.issued⟩ ∨ label = ⟨before.labels.issued + 1⟩ := by simpa using isNew
      · rw [← same] at lower
        exact absurd lower (Nat.lt_irrefl _)
      · rw [← same] at lower
        exact absurd lower (Nat.not_lt_of_le (Nat.le_succ _))
    · intro label isOpen
      rw [all] at isOpen
      simp only [List.cons_append, List.nil_append, List.mem_cons] at isOpen
      obtain rfl | rfl | isOpen := isOpen
      · simp [issued]
      · simp [issued]
      · have := orderly.issued label isOpen
        omega
  | divides elseLabel endLabel outer top outline issued =>
    -- A second level counts as part of the construct below it.
    have same : openLabels after.outline = openLabels before.outline := by rw [outline, openLabels_second]
    refine ⟨?_, same ▸ orderly.distinct, ?_⟩
    · have seated := orderly.seated
      rw [top] at seated
      rw [outline, top]
      exact .second seated
    · intro label isOpen
      exact Nat.lt_of_lt_of_le (orderly.issued label (same ▸ isOpen)) issued
  | clears outline =>
    have nothing : openLabels after.outline = [] := by rw [outline]; rfl
    exact ⟨outline ▸ .nil, by simp [nothing], by simp [nothing]⟩

/-! ## Steps that remove levels -/

/-- Up to `count` of the innermost levels went. Of those that are left, only the innermost has another text. -/
def Level.Sheds (count : Nat) (before after : List Level) : Prop :=
  ∃ gone ≤ count, after.map Level.construct = (before.map Level.construct).drop gone ∧
    after.tail = before.drop (gone + 1)

namespace Level.Sheds

variable {before between after : List Level} {count more : Nat}

theorem refl (levels : List Level) : Sheds 0 levels levels := ⟨0, Nat.le_refl 0, by simp, by simp⟩

theorem trans (first : Sheds count before between) (second : Sheds more between after) :
    Sheds (count + more) before after := by
  obtain ⟨gone, few, constructs, outer⟩ := first
  obtain ⟨others, fewOthers, otherConstructs, otherOuter⟩ := second
  refine ⟨gone + others, by omega, ?_, ?_⟩
  · rw [otherConstructs, constructs, List.drop_drop]
  -- What the first part leaves as it was includes all that the second may not touch.
  · calc
      after.tail = between.tail.drop others := by rw [otherOuter, List.drop_tail]
      _ = before.drop (gone + 1 + others) := by rw [outer, List.drop_drop]
      _ = before.drop (gone + others + 1) := by rw [Nat.add_right_comm]

theorem mono (sheds : Sheds count before after) (fewer : count ≤ more) : Sheds more before after := by
  obtain ⟨gone, few, kept⟩ := sheds
  exact ⟨gone, Nat.le_trans few fewer, kept⟩

end Level.Sheds

namespace BufferStack

/-- A text goes to the innermost level, or nowhere. -/
theorem append_sheds (text : String) (stack : BufferStack) :
    Level.Sheds 0 stack.levels (append text stack).state.levels := by
  refine ⟨0, Nat.le_refl 0, ?_⟩
  cases levels : stack.levels with
  | nil => simp [append, levels]
  | cons level rest =>
    by_cases fits : text.utf8ByteSize ≤ level.remaining <;> simp [append, Level.append, levels, fits]

theorem pop_sheds (stack : BufferStack) : Level.Sheds 1 stack.levels (pop stack).state.levels := by
  refine ⟨1, Nat.le_refl 1, ?_⟩
  cases levels : stack.levels <;> simp [pop, levels]

/-- A merge that finds no room after all has lost the innermost level, and no other. -/
theorem mergeInnermost_sheds (stack : BufferStack) :
    Level.Sheds 1 stack.levels (mergeInnermost stack).state.levels := by
  refine ⟨1, Nat.le_refl 1, ?_⟩
  match levels : stack.levels with
  | [] => simp [mergeInnermost, Bind.bind, Action.bind, pop, levels]
  | [level] => simp [mergeInnermost, Bind.bind, Action.bind, pop, append, levels]
  | inner :: outer :: rest =>
    by_cases fits : inner.text.utf8ByteSize ≤ outer.remaining <;>
      simp [mergeInnermost, Bind.bind, Action.bind, pop, append, Level.append, top, recycle, levels, fits]

theorem merge_two_sheds (stack : BufferStack) : Level.Sheds 1 stack.levels (merge 2 stack).state.levels := by
  have still : Level.Sheds 1 stack.levels stack.levels := (Level.Sheds.refl _).mono (Nat.zero_le 1)
  have merges := stack.mergeInnermost_sheds
  -- Both checks come before anything is moved.
  by_cases shallow : stack.depth < 2
  · simpa [merge, Bind.bind, Action.bind, shallow] using still
  · by_cases large : stack.bufferCapacity < stack.innermostSize 2
    · simpa [merge, Bind.bind, Action.bind, shallow, large] using still
    · cases result : (mergeInnermost stack).result <;>
        simpa [merge, mergeSteps, Bind.bind, Action.bind, Pure.pure, Action.pure, shallow, large, result] using merges

end BufferStack

/-- A context that lost up to `count` levels and issued no label. -/
def Context.Sheds (count : Nat) (before after : Context) : Prop :=
  Level.Sheds count before.stack.levels after.stack.levels ∧ after.labels = before.labels

theorem Context.Sheds.shifts {count : Nat} {before after : Context} (sheds : Context.Sheds count before after) :
    before.Shifts after := by
  obtain ⟨⟨gone, -, constructs, -⟩, labels⟩ := sheds
  refine .shrinks ?_ (Nat.le_of_eq (by rw [labels]))
  rw [Context.outline, constructs]
  exact List.drop_suffix gone before.outline

theorem Context.Sheds.outline_eq {before after : Context} (sheds : Context.Sheds 0 before after) :
    after.outline = before.outline := by
  obtain ⟨⟨gone, few, constructs, -⟩, -⟩ := sheds
  obtain rfl := Nat.le_zero.mp few
  exact constructs

namespace Emission

variable {α β : Type} {count more : Nat}

/-- An action that removes at most `count` levels, however it ends. -/
def Sheds (count : Nat) (action : Emission α) : Prop := ∀ before, Context.Sheds count before (action before).state

namespace Sheds

theorem of_still {action : Emission α} (still : ∀ before, (action before).state = before) : Sheds 0 action := by
  intro before
  rw [still]
  exact ⟨.refl _, rfl⟩

theorem bind {action : Emission α} {next : α → Emission β} (first : Sheds count action)
    (second : ∀ value, Sheds more (next value)) : Sheds (count + more) (action >>= next) := by
  intro before
  obtain ⟨levels, labels⟩ := first before
  cases result : (action before).result with
  | ok value =>
    rw [Action.bind_eq_of_ok result]
    obtain ⟨laterLevels, laterLabels⟩ := second value (action before).state
    exact ⟨levels.trans laterLevels, laterLabels.trans labels⟩
  | error error =>
    rw [Action.bind_eq_of_error result]
    exact ⟨levels.mono (Nat.le_add_right count more), labels⟩

theorem map {f : α → β} {action : Emission α} (sheds : Sheds count action) : Sheds count (f <$> action) := by
  rw [map_eq_pure_bind]
  exact sheds.bind fun _ => of_still fun _ => rfl

theorem reportingFailure {describe : Context → List Event} {action : Emission α} (sheds : Sheds count action) :
    Sheds count (action.reportingFailure describe) := by
  intro before
  have kept := sheds before
  cases result : (action before).result <;> simpa [Action.reportingFailure, result] using kept

/-- A part that removes nothing behind another one. -/
theorem after {action : Emission α} {next : α → Emission β} (first : Sheds count action)
    (second : ∀ value, Sheds 0 (next value)) : Sheds count (action >>= next) :=
  first.bind second

/-- A part that removes nothing in front of another one. -/
theorem before {action : Emission α} {next : α → Emission β} (first : Sheds 0 action)
    (second : ∀ value, Sheds more (next value)) : Sheds more (action >>= next) :=
  Nat.zero_add more ▸ first.bind second

end Sheds

theorem onStack_sheds {action : Action EmitError BufferStack α}
    (inside : ∀ stack : BufferStack, Level.Sheds count stack.levels (action stack).state.levels) :
    Sheds count (onStack action) :=
  fun before => ⟨inside before.stack, rfl⟩

theorem top_sheds : Sheds 0 (onStack BufferStack.top) := by
  refine onStack_sheds fun stack => ?_
  cases levels : stack.levels <;> exact ⟨0, Nat.le_refl 0, by simp [BufferStack.top, levels]⟩

theorem append_sheds (text : String) : Sheds 0 (append text) := by
  refine Sheds.before (.of_still fun _ => rfl) fun context => ?_
  split
  · refine (onStack_sheds (BufferStack.append_sheds text)).before fun _ => ?_
    exact top_sheds.before fun _ => .of_still fun _ => rfl
  · exact fun before => ⟨.refl _, rfl⟩

theorem emitFragment_sheds (fragment : Fragment) : Sheds 0 (emitFragment fragment) :=
  Sheds.before (.of_still fun _ => rfl) fun _ => append_sheds _

theorem emit_sheds (operation : Operation) : Sheds 0 (emit operation) := emitFragment_sheds operation.fragment

theorem merge_two_sheds : Sheds 1 (merge 2) :=
  (onStack_sheds BufferStack.merge_two_sheds).reportingFailure

theorem close_sheds : Sheds 1 close := by
  have recycles (buffer : String) : Sheds 0 (onStack (Action.update (BufferStack.recycle buffer))) :=
    onStack_sheds fun stack => .refl stack.levels
  refine Sheds.before (.of_still fun _ => rfl) fun context => ?_
  refine (Sheds.of_still fun _ => rfl).reportingFailure.before fun _ => ?_
  -- From here on the level is gone, even if the stream refuses its text.
  refine (onStack_sheds BufferStack.pop_sheds).after fun level => ?_
  refine (append_sheds level.text).before fun _ => ?_
  refine Sheds.before (.of_still fun _ => rfl) fun outside => ?_
  refine Sheds.before (.of_still fun _ => rfl) fun _ => ?_
  exact (recycles level.text).before fun _ => .of_still fun _ => rfl

theorem loopLabels_sheds : Sheds 0 loopLabels := by
  refine Sheds.before (top_sheds.before fun _ => .of_still fun _ => rfl) fun construct => ?_
  split <;> exact .of_still fun _ => rfl

theorem endWhile_sheds : Sheds 1 endWhile := by
  refine loopLabels_sheds.before fun labels => ?_
  refine (emit_sheds _).before fun _ => (emit_sheds _).before fun _ => ?_
  exact close_sheds.after fun _ => .of_still fun _ => rfl

/-- The end of a conditional removes levels of that conditional only, also when it stops halfway. -/
theorem endIf_sheds {context : Context} {construct : Construct} (top : context.outline.head? = some construct) :
    Context.Sheds construct.ownLevels.length context (endIf context).state := by
  have shown : topConstruct.Yields context construct context := topConstruct_yields_iff.mpr ⟨top, rfl⟩
  rw [endIf, Action.bind_eq_of_ok shown.1, shown.2]
  cases construct with
  | conditional elseLabel endLabel inElse =>
    cases inElse with
    | true => exact (merge_two_sheds.bind fun _ => close_sheds.after fun _ => emit_sheds (.place endLabel)) context
    | false => exact (close_sheds.after fun _ => emit_sheds (.place elseLabel)) context
  | loop _ _ => exact ⟨.refl _, rfl⟩

end Emission

/-! ## Steps of a session -/

/-- Text changes nothing about the constructs. -/
theorem Context.Shifts.still {before middle after : Context} (shifts : before.Shifts middle)
    (sheds : Context.Sheds 0 middle after) : before.Shifts after := by
  have outline := sheds.outline_eq
  have labels := sheds.2
  cases shifts with
  | shrinks isSuffix issued => exact .shrinks (outline ▸ isSuffix) (labels ▸ issued)
  | opens construct isFirst own isOutline issued =>
    exact .opens construct isFirst own (outline.trans isOutline) (labels ▸ issued)
  | divides elseLabel endLabel outer top isOutline issued =>
    exact .divides elseLabel endLabel outer top (outline.trans isOutline) (labels ▸ issued)
  | clears isOutline => exact .clears (outline.trans isOutline)

/-- Whatever becomes of an action in two parts, one of them was the last. -/
theorem Action.state_bind {ε σ α β : Type} {P : σ → Prop} {action : Action ε σ α} {next : α → Action ε σ β}
    {before : σ} (stops : P (action before).state) (goesOn : ∀ value, P (next value (action before).state).state) :
    P ((action >>= next) before).state := by
  cases result : (action before).result with
  | ok value =>
    rw [bind_eq_of_ok result]
    exact goesOn value
  | error error =>
    rw [bind_eq_of_error result]
    exact stops

theorem Context.Shifts.map {α β : Type} {f : α → β} {emission : Emission α} {context : Context}
    (shifts : context.Shifts (emission context).state) : context.Shifts ((f <$> emission) context).state := by
  rw [map_eq_pure_bind]
  exact Action.state_bind shifts fun _ => shifts

namespace Emission

theorem push_state (construct : Construct) (context : Context) :
    (push construct context).state = context ∨ (push construct context).state = context.opened construct := by
  obtain ⟨_, after, yields⟩ | ⟨error, after, stops⟩ := (push construct).yields_or_stops context
  · rw [yields.2]
    exact .inr (push_yields_iff.mp yields).2
  · rw [stops.2]
    exact .inl (push_stops_iff.mp stops).2.2

/-- A construct with the next two labels is opened, or cannot be opened. -/
theorem push_shifts {context middle : Context} {construct : Construct} (isFirst : construct.isFirst = true)
    (labels : construct.labels = [⟨context.labels.issued⟩, ⟨context.labels.issued + 1⟩])
    (outline : middle.outline = context.outline) (issued : middle.labels.issued = context.labels.issued + 2) :
    context.Shifts (push construct middle).state := by
  obtain same | opened := push_state construct middle
  · rw [same]
    exact .shrinks (outline ▸ List.suffix_rfl) (by omega)
  · rw [opened]
    exact .opens construct isFirst labels (by rw [Context.outline_opened, outline]) issued

variable {context : Context}

theorem beginIf_shifts (cond : Reg) : context.Shifts (beginIf cond context).state := by
  have emits := emit_sheds (.beq cond .zero ⟨context.labels.issued⟩) context.numbered.numbered
  have outline : (emit (.beq cond .zero ⟨context.labels.issued⟩) context.numbered.numbered).state.outline =
      context.outline := emits.outline_eq
  have issued : (emit (.beq cond .zero ⟨context.labels.issued⟩) context.numbered.numbered).state.labels.issued =
      context.labels.issued + 2 := by rw [emits.2]; rfl
  show context.Shifts ((emit (.beq cond .zero ⟨context.labels.issued⟩) >>= fun _ =>
    push (.conditional ⟨context.labels.issued⟩ ⟨context.labels.issued + 1⟩ false)) context.numbered.numbered).state
  refine Action.state_bind ?_ fun _ => push_shifts rfl rfl outline issued
  -- Without the jump over the branch there is no level, but the labels are used up.
  exact .shrinks (outline ▸ List.suffix_rfl) (by omega)

theorem beginWhile_shifts : context.Shifts (beginWhile context).state := by
  have opens : context.Shifts
      (push (.loop ⟨context.labels.issued⟩ ⟨context.labels.issued + 1⟩) context.numbered.numbered).state :=
    push_shifts rfl rfl rfl rfl
  show context.Shifts ((push (.loop ⟨context.labels.issued⟩ ⟨context.labels.issued + 1⟩) >>= fun _ =>
    emit (.place ⟨context.labels.issued⟩)) context.numbered.numbered).state
  exact Action.state_bind opens fun _ => opens.still (emit_sheds _ _)

/-- The second level is opened on the first one, or not at all. -/
theorem push_else_shifts {middle : Context} {elseLabel endLabel : Label} {outer : List Construct}
    (top : context.outline = .conditional elseLabel endLabel false :: outer) (emits : Context.Sheds 0 context middle) :
    context.Shifts (push (.conditional elseLabel endLabel true) middle).state := by
  obtain same | opened := push_state (.conditional elseLabel endLabel true) middle
  · rw [same]
    exact emits.shifts
  · rw [opened]
    refine .divides elseLabel endLabel outer top ?_ (Nat.le_of_eq (by rw [Context.labels_opened, emits.2]))
    rw [Context.outline_opened, emits.outline_eq]

theorem beginElse_shifts : context.Shifts (beginElse context).state := by
  have still : context.Shifts context := .shrinks List.suffix_rfl (Nat.le_refl _)
  obtain ⟨construct, after, tops⟩ | ⟨error, after, stops⟩ := topConstruct.yields_or_stops context
  · obtain ⟨⟨rest, outline⟩, rfl⟩ := topConstruct_yields tops
    rw [beginElse, Action.bind_eq_of_ok tops.1, tops.2]
    cases construct with
    | conditional elseLabel endLabel inElse =>
      cases inElse with
      | true => exact still
      | false =>
        have emits := emit_sheds (.jump endLabel) after
        have opens := push_else_shifts outline emits
        -- The level stays open even if its label finds no room.
        refine Action.state_bind emits.shifts fun _ => ?_
        exact Action.state_bind opens fun _ => opens.still (emit_sheds _ _)
    | loop _ _ => exact still
  · obtain ⟨-, -, rfl⟩ := topConstruct_stops_iff.mp stops
    rw [beginElse, Action.bind_eq_of_error stops.1, stops.2]
    exact still

theorem endIf_of_unbuffered (nothing : context.outline = []) : (endIf context).state = context := by
  have stops : topConstruct.Stops context .emptyStack context := topConstruct_stops_iff.mpr ⟨nothing, rfl, rfl⟩
  rw [endIf, Action.bind_eq_of_error stops.1, stops.2]

theorem endIf_shifts : context.Shifts (endIf context).state := by
  cases top : context.outline.head? with
  | none =>
    rw [endIf_of_unbuffered (List.head?_eq_none_iff.mp top)]
    exact .shrinks List.suffix_rfl (Nat.le_refl _)
  | some construct => exact (endIf_sheds top).shifts

theorem ensureUnbuffered_sheds : Sheds 0 ensureUnbuffered := .of_still state_ensureUnbuffered

theorem epilog_sheds : Sheds 0 epilog := ensureUnbuffered_sheds.before fun _ => emitFragment_sheds _

theorem stringLiterals_sheds (table : StringTable) : Sheds 0 (stringLiterals table) := by
  refine ensureUnbuffered_sheds.before fun _ => Sheds.before (.of_still fun _ => rfl) fun entries => ?_
  exact Sheds.before (.of_still fun _ => rfl) fun _ => emitFragment_sheds _

end Emission

namespace Step

/-- Whether a step leaves the opening, merging and closing of levels to the control steps. -/
def isStructured : Step → Bool
  | push _ | merge _ | close => false
  | _ => true

open Emission in
theorem perform_shifts {step : Step} (structured : step.isStructured = true) (context : Context) :
    context.Shifts (step.perform context).state := by
  have unmoved {α : Type} {emission : Emission α} (sheds : Sheds 0 emission) : context.Shifts (emission context).state :=
    (sheds context).shifts
  have looks {α : Type} {f : Context → α} : context.Shifts ((f <$> Action.read : Emission α) context).state :=
    unmoved (.of_still fun _ => rfl)
  have pools {α : Type} (action : Action EmitError RegisterPool α) : Sheds 0 (onPool action) :=
    fun before => ⟨.refl before.stack.levels, rfl⟩
  cases step with
  | push construct | merge count | close => cases structured
  | alloc => exact unmoved (pools _).reportingFailure.map
  | free reg => exact unmoved (pools _).map
  | isFree reg | busy | peek | options | isBuffered | enclosing => exact looks
  | label => exact .shrinks List.suffix_rfl (Nat.le_succ _)
  | append text => exact unmoved (append_sheds text).map
  | appendAll insts => exact unmoved (append_sheds _).map
  | top => exact unmoved top_sheds.map
  | emit operation => exact unmoved (emit_sheds operation).map
  | prolog => exact unmoved (emitFragment_sheds _).map
  | epilog => exact unmoved epilog_sheds.map
  | stringLiterals table => exact unmoved (stringLiterals_sheds table).map
  | finish table => exact unmoved (epilog_sheds.before fun _ => stringLiterals_sheds table).map
  | beginIf cond => exact (beginIf_shifts cond).map
  | beginElse => exact beginElse_shifts.map
  | endIf => exact endIf_shifts.map
  | beginWhile => exact beginWhile_shifts.map
  | loopTest cond => exact unmoved (loopLabels_sheds.before fun _ => emit_sheds _).map
  | endWhile => exact (endWhile_sheds.map context).shifts
  | reset => exact .clears (List.map_eq_nil_iff.mpr (perform_discarding context rfl).2)
  | release => exact .clears (List.map_eq_nil_iff.mpr (perform_discarding context rfl).2)

end Step

theorem Context.Orderly.after {context : Context} (orderly : context.Orderly) {steps : List Step}
    (structured : ∀ step ∈ steps, step.isStructured = true) : (context.after steps).Orderly := by
  induction steps generalizing context with
  | nil => exact orderly
  | cons step rest ih =>
    have shifts := step.perform_shifts (structured step List.mem_cons_self) context
    exact ih (shifts.orderly orderly) fun other isLater => structured other (List.mem_cons_of_mem step isLater)

/-! ## Ending a conditional -/

namespace Emission

variable {α β : Type}

/-- An action that is not refused for the number of levels it merges. -/
def MergesWithin (action : Emission α) (context : Context) : Prop :=
  ∀ requested depth after, ¬ action.Stops context (.invalidMerge requested depth) after

theorem MergesWithin.bind {action : Emission α} {next : α → Emission β} {context : Context}
    (first : MergesWithin action context)
    (second : ∀ value after, action.Yields context value after → MergesWithin (next value) after) :
    MergesWithin (action >>= next) context := by
  intro requested depth after stops
  obtain stops | ⟨value, middle, yields, stops⟩ := Action.stops_bind_iff.mp stops
  · exact first requested depth after stops
  · exact second value middle yields requested depth after stops

theorem append_mergesWithin (text : String) (context : Context) : MergesWithin (append text) context := by
  refine MergesWithin.bind (fun _ _ _ => Action.not_stops_read) fun given after _ => ?_
  split
  · refine MergesWithin.bind ?_ fun _ _ _ => MergesWithin.bind ?_ fun _ _ _ _ _ _ => Action.not_stops_report
    · intro requested depth last stops
      obtain ⟨_, stops, -⟩ := stops_onStack_iff.mp stops
      obtain ⟨-, cause⟩ := BufferStack.append_stops_iff.mp stops
      split at cause <;> simp at cause
    · intro requested depth last stops
      obtain ⟨_, stops, -⟩ := stops_onStack_iff.mp stops
      simp [BufferStack.top_stops_iff] at stops
  · intro requested depth last stops
    have failed := stops.1
    cases result : (after.stream.write text).1 <;> simp [write, result] at failed

theorem emit_mergesWithin (operation : Operation) (context : Context) : MergesWithin (emit operation) context :=
  fun requested depth after stops =>
    append_mergesWithin _ context requested depth after (emitFragment_stops_iff.mp stops)

theorem close_mergesWithin (context : Context) : MergesWithin close context := by
  refine MergesWithin.bind (fun _ _ _ => Action.not_stops_read) fun given after _ => ?_
  refine MergesWithin.bind ?_ fun _ _ _ => ?_
  · intro requested depth last stops
    simp only [Action.stops_reportingFailure_iff, Action.stops_ofExcept_iff] at stops
    have refused := stops.1
    unfold closable at refused
    split at refused
    · simp at refused
    · simp at refused
    · split at refused <;> simp at refused
  refine MergesWithin.bind ?_ fun level _ _ => ?_
  · intro requested depth last stops
    obtain ⟨_, stops, -⟩ := stops_onStack_iff.mp stops
    simp [BufferStack.pop_stops_iff] at stops
  refine MergesWithin.bind (append_mergesWithin _ _) fun _ _ _ => ?_
  refine MergesWithin.bind (fun _ _ _ => Action.not_stops_read) fun _ _ _ => ?_
  refine MergesWithin.bind (fun _ _ _ => Action.not_stops_report) fun _ _ _ => ?_
  refine MergesWithin.bind ?_ fun _ _ _ _ _ _ => Action.not_stops_pure
  intro requested depth last stops
  obtain ⟨_, stops, -⟩ := stops_onStack_iff.mp stops
  exact Action.not_stops_update stops

/-- An else level that lies on another level can be merged into it. -/
theorem endIf_mergesWithin {context : Context} (seated : Seated context.outline) : MergesWithin endIf context := by
  refine MergesWithin.bind ?_ fun construct after tops => ?_
  · intro requested depth after stops
    simp [topConstruct_stops_iff] at stops
  · obtain ⟨⟨rest, outline⟩, rfl⟩ := topConstruct_yields tops
    rw [outline] at seated
    match construct with
    | .conditional elseLabel endLabel true =>
      obtain ⟨outer, rfl⟩ := seated.below_of_second
      have deep : 2 ≤ after.stack.depth := by
        have length := congrArg List.length outline
        simp only [Context.outline, List.length_map, List.length_cons] at length
        simp only [BufferStack.depth]
        omega
      -- With two levels there, only their size can stand in the way of the merge.
      refine MergesWithin.bind ?_ fun _ _ _ => (close_mergesWithin _).bind fun _ _ _ => emit_mergesWithin _ _
      intro requested depth last stops
      cases merge_stops (Nat.le_refl 2) deep stops
    | .conditional elseLabel endLabel false =>
      exact (close_mergesWithin _).bind fun _ _ _ => emit_mergesWithin _ _
    | .loop _ _ =>
      intro requested depth last stops
      cases (Action.stops_fail_iff.mp stops).1

end Emission

/-- The levels of the innermost construct if it is a conditional, innermost first. -/
def Context.ownLevels (context : Context) : List Construct :=
  match context.outline with
  | [] => []
  | construct :: _ => construct.ownLevels

/-- In a session that leaves the levels to the control steps, every else level lies on the first level of its
conditional, whatever failed before, and open constructs share no label. The end of a conditional is never refused for
lack of a level to merge, and removes levels of its own conditional only. All other levels stay; the innermost of them
takes up the text of the conditional once that is gone, and the others are as they were. -/
theorem session_keeps_else_levels_seated (options : Options) (stream : Stream) (steps : List Step)
    (structured : ∀ step ∈ steps, step.isStructured = true) :
    let context := (Context.start options stream).after steps
    let ended := Emission.endIf context
    (∀ index elseLabel endLabel, context.outline[index]? = some (.conditional elseLabel endLabel true) →
      context.outline[index + 1]? = some (.conditional elseLabel endLabel false)) ∧
    (openLabels context.outline).Nodup ∧
    (∀ requested depth, ended.result ≠ .error (.invalidMerge requested depth)) ∧
    context.ownLevels <+: context.outline ∧
    ∃ gone ≤ context.ownLevels.length,
      ended.state.outline = context.outline.drop gone ∧
        ended.state.stack.levels.tail = context.stack.levels.drop (gone + 1) := by
  intro context ended
  have start : (Context.start options stream).Orderly := ⟨.nil, by simp [Context.outline, Context.start, openLabels],
    by simp [Context.outline, Context.start, openLabels]⟩
  have orderly : context.Orderly := start.after structured
  refine ⟨fun index elseLabel endLabel isElse => orderly.seated.getElem? isElse, orderly.distinct, ?_, ?_⟩
  · intro requested depth refused
    exact Emission.endIf_mergesWithin orderly.seated requested depth ended.state ⟨refused, rfl⟩
  · cases outline : context.outline with
    | nil =>
      have still : ended.state = context := Emission.endIf_of_unbuffered outline
      have nothing : context.stack.levels = [] := List.map_eq_nil_iff.mp outline
      rw [Context.ownLevels, outline, still, outline, nothing]
      exact ⟨List.nil_prefix, 0, Nat.le_refl 0, rfl, rfl⟩
    | cons construct outer =>
      have seated := orderly.seated
      rw [outline] at seated
      obtain ⟨⟨gone, few, constructs, others⟩, -⟩ :=
        Emission.endIf_sheds (show context.outline.head? = some construct by rw [outline]; rfl)
      rw [Context.ownLevels, outline]
      refine ⟨seated.ownLevels_prefix, gone, few, ?_, others⟩
      rw [← outline]
      exact constructs

/-- A conditional in a loop that has no room for it. Its end merges the branches and then fails, and it is divided
once more. -/
def crowdedLoop : List Step :=
  [.beginWhile, .append "  move $t0, $t1\n", .beginIf .t0, .append "  move $t0, $t1\n", .beginElse, .endIf, .beginElse]

theorem session_keeps_else_levels_seated_crowdedLoop :
    ∃ context, context = (Context.start { bufferCapacity := 54 } {}).after crowdedLoop ∧
      context.outline = [.conditional ⟨2⟩ ⟨3⟩ true, .conditional ⟨2⟩ ⟨3⟩ false, .loop ⟨0⟩ ⟨1⟩] ∧
      (openLabels context.outline).Nodup ∧
      ∀ requested depth, (Emission.endIf context).result ≠ .error (.invalidMerge requested depth) := by
  have holds := session_keeps_else_levels_seated { bufferCapacity := 54 } {} crowdedLoop (by decide)
  exact ⟨_, rfl, by decide +kernel, holds.2.1, holds.2.2.1⟩

end MipsBackend
