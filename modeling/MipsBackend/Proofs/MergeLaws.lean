import Mathlib.Data.List.Induction
import MipsBackend.Proofs.StackInvariant

/-! # Laws of merging

On a stack that is in order, a merge is done whole or not at all, and its outcome depends only on how many levels are
merged and how much they hold.

* `BufferStack.MergeOutcome`: what a merge comes to, in all cases.
* `BufferStack.merges_compose`: merges one after the other are one merge, however the levels are grouped.
* `Emission.close_agrees_with_merge`: closing a level into the one around it is merging two.
-/

namespace MipsBackend

theorem Level.joined_concat (inner : List Level) (outermost : Level) :
    joined (inner ++ [outermost]) = outermost.text ++ joined inner := by
  induction inner with
  | nil => simp [joined]
  | cons level rest ih => rw [List.cons_append, joined, joined, ih, String.append_assoc]

namespace BufferStack

variable {stack after : BufferStack} {count : Nat}

/-! ## Levels merged one by one -/

theorem absorbedTimes_add (stack : BufferStack) (first second : Nat) :
    stack.absorbedTimes (first + second) = (stack.absorbedTimes first).absorbedTimes second := by
  induction first generalizing stack with
  | zero => rw [Nat.zero_add, absorbedTimes]
  | succ first ih => rw [Nat.succ_add, absorbedTimes, absorbedTimes, ih]

/-- The levels inside `survivor` all go to it, and their buffers are kept. -/
theorem absorbedTimes_eq {inner outer : List Level} {survivor : Level}
    (levels : stack.levels = inner ++ survivor :: outer) :
    stack.absorbedTimes inner.length =
      { stack with
        levels := { survivor with text := Level.joined (inner ++ [survivor]) } :: outer
        spare := List.replicate inner.length "" ++ stack.spare } := by
  -- From the inside out: what is inside the last level of `inner` has gone to that one before.
  induction inner using List.reverseRecOn generalizing survivor outer with
  | nil =>
    cases stack
    cases levels
    simp [absorbedTimes, Level.joined]
  | append_singleton inside last ih =>
    have before := ih (by simpa using levels)
    rw [List.length_append, List.length_singleton, absorbedTimes_add, before, Level.joined_concat _ survivor]
    simp [absorbedTimes, absorbed, Level.extend, List.replicate_succ]

theorem exists_survivor (some : 0 < count) (deep : count ≤ stack.depth) :
    ∃ inner survivor outer, stack.levels = inner ++ survivor :: outer ∧ inner.length + 1 = count := by
  have within : count - 1 < stack.levels.length := by
    unfold depth at deep
    omega
  refine ⟨stack.levels.take (count - 1), stack.levels[count - 1], stack.levels.drop (count - 1 + 1), ?_, ?_⟩
  · rw [← List.drop_eq_getElem_cons within, List.take_append_drop]
  · rw [List.length_take]
    omega

theorem depth_absorbedTimes {steps : Nat} (deep : steps < stack.depth) :
    (stack.absorbedTimes steps).depth = stack.depth - steps := by
  have lengths := congrArg List.length (constructs_absorbedTimes deep)
  simpa [depth] using lengths

theorem bufferCapacity_absorbedTimes (stack : BufferStack) (steps : Nat) :
    (stack.absorbedTimes steps).bufferCapacity = stack.bufferCapacity := by
  induction steps generalizing stack with
  | zero => rfl
  | succ steps ih => rw [absorbedTimes, ih, bufferCapacity_absorbed]

theorem innermostSize_absorbedTimes (stack : BufferStack) (steps : Nat) (some : 0 < count) :
    (stack.absorbedTimes steps).innermostSize count = stack.innermostSize (steps + count) := by
  obtain ⟨more, rfl⟩ : ∃ more, count = more + 1 := ⟨count - 1, by omega⟩
  induction steps generalizing stack with
  | zero => rw [absorbedTimes, Nat.zero_add]
  | succ steps ih =>
    have once := stack.innermostSize_absorbed (steps + more)
    rw [absorbedTimes, ih, ← Nat.add_assoc, once, show steps + more + 2 = steps + 1 + (more + 1) by omega]

theorem innermostSize_mono (stack : BufferStack) {fewer more : Nat} (fewerLevels : fewer ≤ more) :
    stack.innermostSize fewer ≤ stack.innermostSize more := by
  have part := Level.totalSize_take_le (stack.levels.take more) fewer
  rwa [List.take_take, Nat.min_eq_left fewerLevels] at part

/-! ## What a merge comes to -/

/-- With levels of one capacity, the checks in front of a merge are all there is to it. -/
theorem Uniform.merge_yields_iff (uniform : stack.Uniform) {value : Unit} :
    (merge count).Yields stack value after ↔
      2 ≤ count ∧ count ≤ stack.depth ∧ stack.innermostSize count ≤ stack.bufferCapacity ∧
        after = stack.absorbedTimes (count - 1) := by
  rw [BufferStack.merge_yields_iff]
  constructor
  · rintro ⟨valid, deep, fits, -, isAfter⟩
    exact ⟨valid, deep, fits, isAfter⟩
  · rintro ⟨valid, deep, fits, isAfter⟩
    exact ⟨valid, deep, fits, uniform.absorbs deep fits, isAfter⟩

/-- What the merge of the `count` innermost levels of a stack with levels of the given capacity comes to. -/
structure MergeOutcome (stack : BufferStack) (capacity count : Nat) (outcome : Outcome EmitError BufferStack Unit) :
    Prop where
  /-- Fewer than two levels, or more than are open, are refused. -/
  invalid : outcome.result = .error (.invalidMerge count stack.depth) ↔ count < 2 ∨ stack.depth < count
  /-- Levels that together hold more than one of them can are refused. -/
  crowded : outcome.result = .error (.capacityExceeded (stack.innermostSize count) capacity) ↔
    2 ≤ count ∧ count ≤ stack.depth ∧ capacity < stack.innermostSize count
  /-- What is refused changes nothing. -/
  refused : count < 2 ∨ stack.depth < count ∨ capacity < stack.innermostSize count → outcome.state = stack
  /-- All else succeeds. The outermost of the merged levels stays and holds their texts in program order, and the
  buffers of the others are kept. -/
  merges : 2 ≤ count → count ≤ stack.depth → stack.innermostSize count ≤ capacity →
    outcome.result = .ok () ∧
      ∃ inner survivor outer, stack.levels = inner ++ survivor :: outer ∧ inner.length + 1 = count ∧
        outcome.state =
          { stack with
            levels := { survivor with text := Level.joined (inner ++ [survivor]) } :: outer
            spare := List.replicate (count - 1) "" ++ stack.spare }
  /-- Then no merge of a single level is stopped: there is a level to take off, another one under it, and room in
  that for the text. -/
  unbroken : 2 ≤ count → count ≤ stack.depth → stack.innermostSize count ≤ capacity →
    ∀ done < count - 1, ∃ middle, (mergeSteps done).Yields stack () middle ∧
      ∃ inner popped outer appended, pop.Yields middle inner popped ∧ top.Yields popped outer popped ∧
        (append inner.text).Yields popped () appended

/-- A level that is absorbed is popped, and its text appended. -/
theorem Absorbs.yields (absorbs : stack.Absorbs) :
    ∃ inner popped outer appended, pop.Yields stack inner popped ∧ top.Yields popped outer popped ∧
      (append inner.text).Yields popped () appended := by
  match levels : stack.levels with
  | [] | [_] => simp [Absorbs, levels] at absorbs
  | inner :: outer :: rest =>
    have room : inner.size ≤ outer.remaining := by simpa [Absorbs, levels] using absorbs
    exact ⟨inner, { stack with levels := outer :: rest }, outer, _, pop_yields_iff.mpr ⟨_, levels, rfl⟩,
      top_yields_iff.mpr ⟨⟨rest, rfl⟩, rfl⟩, append_yields_iff.mpr ⟨outer, rest, rfl, room, rfl⟩⟩

theorem Uniform.mergeOutcome (uniform : stack.Uniform) (count : Nat) :
    stack.MergeOutcome stack.bufferCapacity count (merge count stack) := by
  by_cases invalid : count < 2 ∨ stack.depth < count
  · have stops := merge_of_invalid invalid
    exact ⟨iff_of_true stops.1 invalid, iff_of_false (by rw [stops.1]; nofun) (by omega), fun _ => stops.2, by omega,
      by omega⟩
  by_cases crowded : stack.bufferCapacity < stack.innermostSize count
  · have stops := merge_of_crowded (by omega) (by omega) crowded
    exact ⟨iff_of_false (by rw [stops.1]; nofun) invalid, iff_of_true stops.1 (by omega), fun _ => stops.2, by omega,
      by omega⟩
  · have deep : count ≤ stack.depth := by omega
    have fits : stack.innermostSize count ≤ stack.bufferCapacity := by omega
    have yields : (merge count).Yields stack () _ :=
      uniform.merge_yields_iff.mpr ⟨by omega, deep, fits, rfl⟩
    refine ⟨iff_of_false (by rw [yields.1]; nofun) invalid, iff_of_false (by rw [yields.1]; nofun) (by omega), by omega,
      fun _ _ _ => ⟨yields.1, ?_⟩, ?_⟩
    · obtain ⟨inner, survivor, outer, levels, length⟩ := exists_survivor (by omega) deep
      have merged := absorbedTimes_eq levels
      rw [show inner.length = count - 1 by omega] at merged
      exact ⟨inner, survivor, outer, levels, length, yields.2.trans merged⟩
    · intro _ _ _ done below
      have absorbs := uniform.absorbs deep fits
      refine ⟨_, mergeSteps_yields_iff.mpr ⟨fun earlier before => absorbs earlier (by omega), rfl⟩, ?_⟩
      exact (absorbs done below).yields

/-- On a stack that was used in any way, a merge is done whole or refused whole, and which of the two is known from
the number of levels and the sizes of their texts. -/
theorem merge_whole_or_refused (maxDepth bufferCapacity : Nat) (steps : List StackStep) (count : Nat) :
    let stack := (start maxDepth bufferCapacity).after steps
    stack.MergeOutcome bufferCapacity count (merge count stack) := by
  intro stack
  have capacity : stack.bufferCapacity = bufferCapacity :=
    congrArg Prod.snd ((start maxDepth bufferCapacity).bounds_after steps)
  have outcome := (regular_after maxDepth bufferCapacity steps).uniform.mergeOutcome count
  rwa [capacity] at outcome

/-! ## Merges one after the other -/

/-- Two merges come to one. -/
theorem Uniform.merge_merge_iff (uniform : stack.Uniform) {first second : Nat} (validFirst : 2 ≤ first)
    (validSecond : 2 ≤ second) :
    (∃ middle, (merge first).Yields stack () middle ∧ (merge second).Yields middle () after) ↔
      (merge (first + second - 1)).Yields stack () after := by
  -- What the first merge leaves is one level for the second, which holds what `first` levels held.
  have levels (deep : first ≤ stack.depth) : (stack.absorbedTimes (first - 1)).depth = stack.depth - (first - 1) :=
    depth_absorbedTimes (by omega)
  have size : (stack.absorbedTimes (first - 1)).innermostSize second = stack.innermostSize (first + second - 1) := by
    rw [innermostSize_absorbedTimes stack _ (by omega), show first - 1 + second = first + second - 1 by omega]
  have twice : (stack.absorbedTimes (first - 1)).absorbedTimes (second - 1) =
      stack.absorbedTimes (first + second - 1 - 1) := by
    rw [← absorbedTimes_add, show first - 1 + (second - 1) = first + second - 1 - 1 by omega]
  constructor
  · rintro ⟨middle, once, again⟩
    obtain ⟨-, deep, -, rfl⟩ := uniform.merge_yields_iff.mp once
    obtain ⟨-, deeper, fits, rfl⟩ := (uniform.absorbedTimes _).merge_yields_iff.mp again
    rw [levels deep] at deeper
    rw [size, bufferCapacity_absorbedTimes] at fits
    exact uniform.merge_yields_iff.mpr ⟨by omega, by omega, fits, twice⟩
  · intro whole
    obtain ⟨-, deep, fits, rfl⟩ := uniform.merge_yields_iff.mp whole
    have fewer := stack.innermostSize_mono (show first ≤ first + second - 1 by omega)
    refine ⟨_, uniform.merge_yields_iff.mpr ⟨validFirst, by omega, by omega, rfl⟩, ?_⟩
    rw [(uniform.absorbedTimes _).merge_yields_iff, levels (by omega), size, bufferCapacity_absorbedTimes, twice]
    exact ⟨validSecond, by omega, fits, rfl⟩

/-- How many levels become one when merges of so many levels each come one after the other. -/
def mergedLevels : List Nat → Nat
  | [] => 1
  | count :: rest => count - 1 + mergedLevels rest

theorem mergedLevels_pos (counts : List Nat) : 0 < mergedLevels counts := by
  induction counts with
  | nil => exact Nat.one_pos
  | cons count rest ih => exact Nat.add_pos_right _ ih

/-- Any number of merges come to one. -/
theorem Uniform.merges_yields_iff (uniform : stack.Uniform) {counts : List Nat} (any : counts ≠ [])
    (valid : ∀ count ∈ counts, 2 ≤ count) :
    (counts.forM merge).Yields stack () after ↔ (merge (mergedLevels counts)).Yields stack () after := by
  induction counts generalizing stack with
  | nil => exact absurd rfl any
  | cons first rest ih =>
    obtain ⟨validFirst, validRest⟩ := List.forall_mem_cons.mp valid
    cases rest with
    | nil =>
      have single : mergedLevels [first] = first := Nat.sub_add_cancel (by omega)
      simp [single]
    | cons second others =>
      have several : 2 ≤ mergedLevels (second :: others) := by
        have some := mergedLevels_pos others
        have validSecond := validRest second (by simp)
        simp only [mergedLevels]
        omega
      have total : mergedLevels (first :: second :: others) = first + mergedLevels (second :: others) - 1 := by
        rw [mergedLevels]
        omega
      have later {middle : BufferStack} (once : (merge first).Yields stack () middle) :
          ((second :: others).forM merge).Yields middle () after ↔
            (merge (mergedLevels (second :: others))).Yields middle () after := by
        obtain ⟨-, -, -, rfl⟩ := uniform.merge_yields_iff.mp once
        exact ih (uniform.absorbedTimes _) (by simp) validRest
      rw [total, ← uniform.merge_merge_iff validFirst several, List.forM, Action.yields_bind_iff]
      constructor
      · rintro ⟨⟨⟩, middle, once, again⟩
        exact ⟨middle, once, (later once).mp again⟩
      · rintro ⟨middle, once, again⟩
        exact ⟨(), middle, once, (later once).mpr again⟩

/-- On a stack that was used in any way, two merges one after the other succeed where the one merge of all their levels
does, and leave the same stack; so do any merges, however they group the levels. -/
theorem merges_compose (maxDepth bufferCapacity : Nat) (steps : List StackStep) :
    let stack := (start maxDepth bufferCapacity).after steps
    (∀ first second, 2 ≤ first → 2 ≤ second →
      let once := merge first stack
      let twice := merge second once.state
      let whole := merge (first + second - 1) stack
      (once.result = .ok () ∧ twice.result = .ok () ↔ whole.result = .ok ()) ∧
        (whole.result = .ok () → twice.state = whole.state)) ∧
    ∀ counts : List Nat, counts ≠ [] → (∀ count ∈ counts, 2 ≤ count) → ∀ after,
      (counts.forM merge).Yields stack () after ↔ (merge (mergedLevels counts)).Yields stack () after := by
  intro stack
  have uniform : stack.Uniform := (regular_after maxDepth bufferCapacity steps).uniform
  refine ⟨?_, fun counts any valid after => uniform.merges_yields_iff any valid⟩
  intro first second validFirst validSecond once twice whole
  have halves (ok : whole.result = .ok ()) :
      once.result = .ok () ∧ twice.result = .ok () ∧ twice.state = whole.state := by
    obtain ⟨middle, ⟨ok, rfl⟩, again⟩ := (uniform.merge_merge_iff validFirst validSecond).mpr ⟨ok, rfl⟩
    exact ⟨ok, again⟩
  refine ⟨⟨?_, fun ok => ⟨(halves ok).1, (halves ok).2.1⟩⟩, fun ok => (halves ok).2.2⟩
  rintro ⟨ok, again⟩
  exact ((uniform.merge_merge_iff validFirst validSecond).mp ⟨_, ⟨ok, rfl⟩, again, rfl⟩).1

/-- Three merges of two levels are one of four. -/
theorem merges_compose_four :
    let stack := (start 4 4).after
      [.push (.loop ⟨0⟩ ⟨1⟩), .append "A", .push (.loop ⟨2⟩ ⟨3⟩), .append "B",
        .push (.conditional ⟨4⟩ ⟨5⟩ false), .append "C", .push (.loop ⟨6⟩ ⟨7⟩), .append "D"]
    (merge 4 stack).result = .ok () ∧
      (merge 3 (merge 2 stack).state).state = (merge 4 stack).state ∧
      ([2, 2, 2].forM merge).Yields stack () (merge 4 stack).state :=
  ⟨rfl, ((merges_compose 4 4 _).1 2 3 (by decide) (by decide)).2 rfl,
    ((merges_compose 4 4 _).2 [2, 2, 2] (by decide) (by decide) _).mpr ⟨rfl, rfl⟩⟩

end BufferStack

/-! ## Closing as merging -/

namespace Context

variable {context : Context}

theorem closed_eq_merged (deep : 2 ≤ context.stack.depth) : context.closed = context.merged 2 := by
  match levels : context.stack.levels with
  | [] | [_] => simp [BufferStack.depth, levels] at deep
  | inner :: outer :: rest => simp [closed, merged, BufferStack.absorbedTimes, levels]

theorem merged_merged (context : Context) (first second : Nat) :
    (context.merged (first + 1)).merged (second + 1) = context.merged (first + second + 1) := by
  simp [merged, BufferStack.absorbedTimes_add]

end Context

/-- The level around the innermost one has room for its text where a merge has room for both. -/
theorem BufferStack.Regular.absorbs_iff {stack : BufferStack} (regular : stack.Regular) (deep : 2 ≤ stack.depth) :
    stack.Absorbs ↔ stack.innermostSize 2 ≤ stack.bufferCapacity := by
  match levels : stack.levels with
  | [] | [_] => simp [depth, levels] at deep
  | inner :: outer :: rest =>
    have capacity := regular.uniform outer (by simp [levels])
    have fits := regular.fits outer (by simp [levels])
    simp only [Absorbs, innermostSize, levels, List.take, Level.totalSize, Level.remaining]
    omega

namespace Emission

variable {context : Context}

theorem close_of_fits (regular : context.stack.Regular) (deep : 2 ≤ context.stack.depth)
    (fits : context.stack.innermostSize 2 ≤ context.stack.bufferCapacity) :
    ∃ construct, context.outline.head? = some construct ∧ close.Yields context construct (context.merged 2) := by
  have absorbs := (regular.absorbs_iff deep).mpr fits
  match levels : context.stack.levels with
  | [] | [_] => simp [BufferStack.depth, levels] at deep
  | inner :: outer :: rest =>
    rw [← Context.closed_eq_merged deep]
    refine ⟨inner.construct, by simp [Context.outline, levels], close_of_nested levels ?_⟩
    simpa [BufferStack.Absorbs, levels] using absorbs

theorem close_of_crowded (regular : context.stack.Regular) (deep : 2 ≤ context.stack.depth)
    (crowded : context.stack.bufferCapacity < context.stack.innermostSize 2) :
    close.Stops context (.capacityExceeded (context.stack.innermostSize 2) context.stack.bufferCapacity) context := by
  have refused : ¬ context.stack.Absorbs := by
    rw [regular.absorbs_iff deep]
    omega
  match levels : context.stack.levels with
  | [] | [_] => simp [BufferStack.depth, levels] at deep
  | inner :: outer :: rest =>
    have capacity := regular.uniform outer (by simp [levels])
    apply close_of_refused
    simp only [BufferStack.Absorbs, levels] at refused
    simp [closable, levels, refused, BufferStack.innermostSize, Level.totalSize, capacity, Nat.add_comm]

theorem merge_of_fits {count : Nat} (uniform : context.stack.Uniform) (valid : 2 ≤ count)
    (deep : count ≤ context.stack.depth)
    (fits : context.stack.innermostSize count ≤ context.stack.bufferCapacity) :
    (merge count).Yields context () (context.merged count) :=
  merge_yields_iff.mpr ⟨valid, deep, fits, uniform.absorbs deep fits, rfl⟩

theorem merge_of_crowded {count : Nat} (valid : 2 ≤ count) (deep : count ≤ context.stack.depth)
    (crowded : context.stack.bufferCapacity < context.stack.innermostSize count) :
    (merge count).Stops context
      (.capacityExceeded (context.stack.innermostSize count) context.stack.bufferCapacity) context :=
  Action.stops_reportingFailure_iff.mpr
    (stops_onStack_iff.mpr ⟨_, BufferStack.merge_of_crowded valid deep crowded, rfl⟩)

end Emission

namespace Context

variable {context : Context} {options : Options} {stream : Stream}

/-- Levels can be closed one by one as long as they all fit into one, and are merged then. -/
theorem Attainable.closes (attainable : context.Attainable options stream) {closes : Nat}
    (deep : closes < context.stack.depth) :
    ((∀ outcome ∈ session (List.replicate closes .close) context, outcome.result.isOk = true) ↔
        context.stack.innermostSize (closes + 1) ≤ context.stack.bufferCapacity) ∧
      (context.stack.innermostSize (closes + 1) ≤ context.stack.bufferCapacity →
        context.after (List.replicate closes .close) = context.merged (closes + 1)) := by
  have regular := attainable.regular
  induction closes generalizing context with
  | zero =>
    refine ⟨?_, fun _ => rfl⟩
    cases levels : context.stack.levels with
    | nil => simp [BufferStack.depth, levels] at deep
    | cons level rest =>
      have capacity := regular.uniform level (by simp [levels])
      have fits := regular.fits level (by simp [levels])
      simpa [session, BufferStack.innermostSize, levels, Level.totalSize, ← capacity] using fits
  | succ closes ih =>
    have fewer := context.stack.innermostSize_mono (show 2 ≤ closes + 1 + 1 by omega)
    simp only [List.replicate_succ, session, List.forall_mem_cons, Context.after]
    by_cases fits : context.stack.innermostSize 2 ≤ context.stack.bufferCapacity
    · obtain ⟨construct, -, closed⟩ := Emission.close_of_fits regular (by omega) fits
      have performed : Step.close.perform.Yields context (.construct construct) (context.merged 2) :=
        Action.yields_map_iff.mpr ⟨construct, closed, rfl⟩
      have still : (context.merged 2).Attainable options stream := performed.2 ▸ attainable.step .close
      have depth : (context.merged 2).stack.depth = context.stack.depth - 1 :=
        BufferStack.depth_absorbedTimes (by omega)
      have size : (context.merged 2).stack.innermostSize (closes + 1) = context.stack.innermostSize (closes + 1 + 1) :=
        (context.stack.innermostSize_absorbedTimes 1 (Nat.succ_pos closes)).trans (by rw [Nat.add_comm])
      have capacity : (context.merged 2).stack.bufferCapacity = context.stack.bufferCapacity :=
        context.stack.bufferCapacity_absorbedTimes 1
      have others := ih still (by omega) still.regular
      rw [size, capacity, merged_merged] at others
      rw [performed.1, performed.2]
      simpa [Except.isOk, Except.toBool, Nat.add_comm] using others
    · have refused := Emission.close_of_crowded regular (by omega) (Nat.lt_of_not_le fits)
      have performed : Step.close.perform.Stops context _ context := Action.stops_map_iff.mpr refused
      rw [performed.1]
      exact ⟨iff_of_false (fun all => Bool.false_ne_true all.1) (by omega), by omega⟩

end Context

namespace Emission

variable {context : Context} {options : Options} {stream : Stream}

/-- Closing all but one of some levels is merging them. -/
theorem closes_agree_with_merge {count : Nat} (attainable : context.Attainable options stream) (valid : 2 ≤ count)
    (deep : count ≤ context.stack.depth) :
    let each := List.replicate (count - 1) Step.close
    let whole := merge count context
    ((∀ outcome ∈ session each context, outcome.result.isOk = true) ↔ whole.result = .ok ()) ∧
      (whole.result = .ok () → context.after each = whole.state) := by
  intro each whole
  obtain ⟨succeed, same⟩ := attainable.closes (show count - 1 < context.stack.depth by omega)
  rw [Nat.sub_add_cancel (by omega)] at succeed same
  by_cases fits : context.stack.innermostSize count ≤ context.stack.bufferCapacity
  · have merged := merge_of_fits attainable.regular.uniform valid deep fits
    exact ⟨iff_of_true (succeed.mpr fits) merged.1, fun _ => (same fits).trans merged.2.symm⟩
  · obtain ⟨refused, -⟩ := merge_of_crowded valid deep (Nat.lt_of_not_le fits)
    rw [succeed, refused]
    exact ⟨iff_of_false fits nofun, nofun⟩

/-- Closing a level into the one around it is merging the two, whatever comes of it; closing gives the construct
besides. Closing several one by one is merging them all. -/
theorem close_agrees_with_merge (attainable : context.Attainable options stream) (deep : 2 ≤ context.stack.depth) :
    let closes := close context
    let merges := merge 2 context
    closes.result.isOk = merges.result.isOk ∧
    (∀ error, closes.result = .error error →
      error = .capacityExceeded (context.stack.innermostSize 2) options.bufferCapacity ∧
        merges.result = .error error ∧ closes.state = context ∧ merges.state = context) ∧
    (∀ construct, closes.result = .ok construct →
      context.outline.head? = some construct ∧ merges.result = .ok () ∧ closes.state = merges.state) ∧
    ∀ count, 2 ≤ count → count ≤ context.stack.depth →
      let each := List.replicate (count - 1) Step.close
      let whole := merge count context
      ((∀ outcome ∈ session each context, outcome.result.isOk = true) ↔ whole.result = .ok ()) ∧
        (whole.result = .ok () → context.after each = whole.state) := by
  intro closes merges
  have several (count : Nat) (valid : 2 ≤ count) (deep : count ≤ context.stack.depth) :=
    closes_agree_with_merge attainable valid deep
  have regular := attainable.regular
  by_cases fits : context.stack.innermostSize 2 ≤ context.stack.bufferCapacity
  · obtain ⟨construct, head, closed⟩ := close_of_fits regular deep fits
    have merged := merge_of_fits regular.uniform (Nat.le_refl 2) deep fits
    refine ⟨by rw [closed.1, merged.1]; rfl, ?_, ?_, several⟩
    · intro error failed
      cases closed.1.symm.trans failed
    · intro given succeeded
      cases closed.1.symm.trans succeeded
      exact ⟨head, merged.1, closed.2.trans merged.2.symm⟩
  · have capacity : context.stack.bufferCapacity = options.bufferCapacity :=
      congrArg (fun bounds => bounds.2.1.2) attainable.reachable.bounds_eq
    have closed := close_of_crowded regular deep (Nat.lt_of_not_le fits)
    have merged := merge_of_crowded (Nat.le_refl 2) deep (Nat.lt_of_not_le fits)
    refine ⟨by rw [closed.1, merged.1]; rfl, ?_, ?_, several⟩
    · intro error failed
      cases closed.1.symm.trans failed
      exact ⟨by rw [capacity], merged.1, closed.2, merged.2⟩
    · intro given succeeded
      cases closed.1.symm.trans succeeded

/-- Two loops and a branch, on levels of four bytes that are filled to the last one when they are one. -/
theorem close_agrees_with_merge_filled :
    let context := (Context.start { bufferCapacity := 4 } {}).after
      [.push (.loop ⟨0⟩ ⟨1⟩), .append "A", .push (.conditional ⟨2⟩ ⟨3⟩ false), .append "BC",
        .push (.loop ⟨4⟩ ⟨5⟩), .append "D"]
    (close context).result = .ok (.loop ⟨4⟩ ⟨5⟩) ∧ (close context).state = (merge 2 context).state ∧
      context.after [.close, .close] = (merge 3 context).state := by
  intro context
  have agree := close_agrees_with_merge (Context.Attainable.start.after _) (show 2 ≤ context.stack.depth by decide)
  exact ⟨rfl, (agree.2.2.1 _ rfl).2.2, (agree.2.2.2 3 (by decide) (by decide)).2 rfl⟩

end Emission

end MipsBackend
