import MipsBackend.Proofs.StreamFaults

/-! # Limits

Limits decide only whether a replay succeeds, and more of a limit never hurts. The depth that a replay needs is the
one its summary tells, to the level: with a limit below it, the replay stops at the first request that goes beyond.

* `BufferStack.peak`: the most levels that were open at once.
* `Context.relimited`: a context as it would be under other limits.
* `relimiting`: the comparison of a run with the same run under other limits.
* `Script.replay_under_other_limits`: what a script that succeeds comes to under other limits.
-/

namespace MipsBackend

/-! ## The most levels open at once -/

namespace BufferStack

/-- The most levels that were open at once. The buffers of levels that are gone are kept and serve before new ones
do, so all buffers there are were once in use together. -/
def peak (stack : BufferStack) : Nat := stack.levels.length + stack.spare.length

theorem depth_le_peak (stack : BufferStack) : stack.depth ≤ stack.peak := Nat.le_add_right _ _

@[simp] theorem peak_absorbed (stack : BufferStack) : stack.absorbed.peak = stack.peak := by
  match levels : stack.levels with
  | [] | [_] => simp [absorbed, levels]
  | inner :: outer :: rest =>
    simp only [absorbed, levels, peak, List.length_cons]
    omega

@[simp] theorem peak_absorbedTimes (stack : BufferStack) (steps : Nat) : (stack.absorbedTimes steps).peak = stack.peak := by
  induction steps generalizing stack with
  | zero => rfl
  | succ steps ih => rw [absorbedTimes, ih, peak_absorbed]

end BufferStack

namespace Context

@[simp] theorem peak_appended (context : Context) (text : String) :
    (context.appended text).stack.peak = context.stack.peak := by
  unfold appended; split <;> simp_all [BufferStack.peak]

@[simp] theorem peak_opened (context : Context) (construct : Construct) :
    (context.opened construct).stack.peak = max context.stack.peak (context.stack.depth + 1) := by
  cases spare : context.stack.spare <;> simp only [opened, BufferStack.peak, BufferStack.depth, spare, List.length_cons,
    List.length_nil, List.tail_cons, List.tail_nil] <;> omega

theorem depth_appended (context : Context) (text : String) :
    (context.appended text).stack.depth = context.stack.depth := by
  unfold appended; split <;> simp_all [BufferStack.depth]

theorem depth_opened (context : Context) (construct : Construct) :
    (context.opened construct).stack.depth = context.stack.depth + 1 :=
  rfl

@[simp] theorem peak_merged (context : Context) (count : Nat) :
    (context.merged count).stack.peak = context.stack.peak := by
  simp [merged]

@[simp] theorem peak_closed (context : Context) : context.closed.stack.peak = context.stack.peak := by
  unfold closed
  split
  next level levels =>
    simp only [BufferStack.peak, levels, List.length_cons, List.length_nil]
    omega
  next => simp

end Context

/-! ## Other limits -/

/-- The level in a stack whose levels hold another amount. -/
def Level.resized (capacity : Nat) (level : Level) : Level := { level with capacity }

def BufferStack.relimited (options : Options) (stack : BufferStack) : BufferStack :=
  { stack with
    levels := stack.levels.map (Level.resized options.bufferCapacity)
    maxDepth := options.maxDepth
    bufferCapacity := options.bufferCapacity }

/-- The context as it would be if other options had been in force. -/
def Context.relimited (options : Options) (context : Context) : Context :=
  { context with stack := context.stack.relimited options, options }

theorem Level.totalSize_resized (capacity : Nat) (levels : List Level) :
    totalSize (levels.map (resized capacity)) = totalSize levels := by
  induction levels with
  | nil => rfl
  | cons level rest ih =>
    rw [List.map_cons, totalSize, totalSize, ih]
    rfl

namespace BufferStack

variable (options : Options) (stack : BufferStack)

@[simp] theorem depth_relimited : (stack.relimited options).depth = stack.depth := by simp [depth, relimited]

@[simp] theorem peak_relimited : (stack.relimited options).peak = stack.peak := by simp [peak, relimited]

theorem innermostSize_relimited (count : Nat) :
    (stack.relimited options).innermostSize count = stack.innermostSize count := by
  rw [innermostSize, relimited, ← List.map_take, Level.totalSize_resized]
  rfl

theorem uniform_relimited : (stack.relimited options).Uniform := by
  intro level isOpen
  obtain ⟨_, -, rfl⟩ := List.mem_map.mp isOpen
  rfl

theorem absorbed_relimited : (stack.relimited options).absorbed = stack.absorbed.relimited options := by
  match levels : stack.levels with
  | [] | [_] => simp [absorbed, relimited, levels]
  | inner :: outer :: rest => simp [absorbed, relimited, levels, Level.resized, Level.extend]

theorem absorbedTimes_relimited (steps : Nat) :
    (stack.relimited options).absorbedTimes steps = (stack.absorbedTimes steps).relimited options := by
  induction steps generalizing stack with
  | zero => rfl
  | succ steps ih => rw [absorbedTimes, absorbedTimes, absorbed_relimited, ih]

end BufferStack

namespace Context

variable (options : Options) (context : Context)

@[simp] theorem outline_relimited : (context.relimited options).outline = context.outline := by
  simp [outline, relimited, BufferStack.relimited, Level.resized, Function.comp_def]

theorem appended_relimited (text : String) :
    (context.relimited options).appended text = (context.appended text).relimited options := by
  cases levels : context.stack.levels <;>
    simp [appended, relimited, BufferStack.relimited, levels, Level.resized, Level.extend]

theorem opened_relimited (construct : Construct) :
    (context.relimited options).opened construct = (context.opened construct).relimited options :=
  rfl

theorem merged_relimited (count : Nat) :
    (context.relimited options).merged count = (context.merged count).relimited options := by
  simp only [merged, relimited, BufferStack.absorbedTimes_relimited]

theorem closed_relimited : (context.relimited options).closed = context.closed.relimited options := by
  match levels : context.stack.levels with
  | [level] => simp [closed, relimited, BufferStack.relimited, levels, Level.resized]
  | [] | _ :: _ :: _ =>
    have left : (context.relimited options).closed =
        { context.relimited options with stack := (context.stack.relimited options).absorbed } := by
      simp [closed, relimited, BufferStack.relimited, levels]
    have right : context.closed = { context with stack := context.stack.absorbed } := by simp [closed, levels]
    rw [left, right, BufferStack.absorbed_relimited]
    rfl

/-- The context keeps to the limits that the options set. -/
structure Obeys (context : Context) : Prop where
  sound : context.Sound
  options_eq : context.options = options
  bounds : context.stack.bounds = (options.maxDepth, options.bufferCapacity)
  peak_le : context.stack.peak ≤ options.maxDepth
  flushes : context.stream.flushFault = none

end Context

/-! ## Sizes -/

theorem Level.utf8ByteSize_joined (levels : List Level) : (joined levels).utf8ByteSize = totalSize levels := by
  induction levels with
  | nil => rfl
  | cons level rest ih =>
    rw [joined, totalSize, String.utf8ByteSize_append, ih, Nat.add_comm]
    rfl

/-- All that levels hold is part of the text. -/
theorem Context.totalSize_le_virtual (context : Context) :
    Level.totalSize context.stack.levels ≤ context.virtual.size := by
  rw [virtual, ByteArray.size_append, ← Level.utf8ByteSize_joined]
  exact Nat.le_add_left _ _

/-! ## Runs under other limits -/

/-- The comparison of a run under some options with the same run under others. The second run is the one that is
known to succeed, so nothing is said for when it does not. -/
def besideLimits (options other : Options) : Comparison EmitError Context where
  Related left right := left = right.relimited other ∧ right.Obeys options ∧ left.Obeys other
  Later earlier later :=
    earlier.Obeys options →
      later.Obeys options ∧ earlier.stack.peak ≤ later.stack.peak ∧ earlier.virtual.size ≤ later.virtual.size
  Lapsed error _ right :=
    right.Obeys options ∧
      (error = .stackOverflow other.maxDepth ∧ other.maxDepth < right.stack.peak ∨
        other.bufferCapacity < options.bufferCapacity ∧ other.bufferCapacity < right.virtual.size)
  Excused _ := True
  later_refl _ obeys := ⟨obeys, Nat.le_refl _, Nat.le_refl _⟩
  later_trans := by
    intro first second third earlier later obeys
    obtain ⟨obeys, peak, size⟩ := earlier obeys
    obtain ⟨obeys, morePeak, moreSize⟩ := later obeys
    exact ⟨obeys, Nat.le_trans peak morePeak, Nat.le_trans size moreSize⟩
  lapsed_later := by
    rintro error state reached next ⟨obeys, cause⟩ later
    obtain ⟨obeys, peak, size⟩ := later obeys
    refine ⟨obeys, cause.imp ?_ ?_⟩
    · rintro ⟨rfl, deep⟩
      exact ⟨rfl, Nat.lt_of_lt_of_le deep peak⟩
    · rintro ⟨less, large⟩
      exact ⟨less, Nat.lt_of_lt_of_le large size⟩

theorem peak_le_of_related {options other : Options} {left right : Context}
    (related : (besideLimits options other).Related left right) : right.stack.peak ≤ other.maxDepth := by
  obtain ⟨rfl, -, otherObeys⟩ := related
  have limited := otherObeys.peak_le
  rwa [Context.relimited, BufferStack.peak_relimited] at limited

/-- A primitive step, which has its effect when it succeeds and none when it fails. -/
structure Emission.Effective {α : Type} (action : Emission α) (effect : Context → Context) : Prop where
  settles : ∀ {context : Context}, context.Sound →
    (∃ value, action.Yields context value (effect context)) ∨ ∃ error, action.Stops context error context
  preserves : action.Preserves Context.bounds
  sound : ∀ {context : Context}, context.Sound → (effect context).Sound
  /-- Levels are opened up to the limit only. -/
  peak : ∀ {context value}, action.Yields context value (effect context) →
    context.stack.peak ≤ (effect context).stack.peak ∧
      (effect context).stack.peak ≤ max context.stack.peak context.stack.maxDepth
  text : ∀ context : Context, context.virtual.size ≤ (effect context).virtual.size
  commutes : ∀ options context, effect (Context.relimited options context) = (effect context).relimited options
  /-- What the step gives does not depend on limits. -/
  same : ∀ {options context value given}, action.Yields context value (effect context) →
    action.Yields (Context.relimited options context) given (effect (Context.relimited options context)) → given = value

namespace Emission.Effective

variable {α : Type} {options other : Options} {action : Emission α} {effect : Context → Context}

theorem grows (effective : Effective action effect) {context : Context} {value : α} (obeys : context.Obeys options)
    (yields : action.Yields context value (effect context)) :
    (effect context).Obeys options ∧ context.stack.peak ≤ (effect context).stack.peak ∧
      context.virtual.size ≤ (effect context).virtual.size := by
  obtain ⟨higher, limited⟩ := effective.peak yields
  have kept := effective.preserves context
  rw [yields.2] at kept
  simp only [Context.bounds, Prod.mk.injEq] at kept
  obtain ⟨sameOptions, sameBounds, -, sameFlush⟩ := kept
  have maxDepth : context.stack.maxDepth = options.maxDepth := (Prod.mk.inj obeys.bounds).1
  refine ⟨⟨effective.sound obeys.sound, sameOptions.trans obeys.options_eq, sameBounds.trans obeys.bounds, ?_,
    sameFlush.trans obeys.flushes⟩, higher, effective.text context⟩
  have := obeys.peak_le
  omega

/-- Other limits change nothing but whether the step succeeds, and then only for a reason. -/
theorem respects (effective : Effective action effect)
    (cause : ∀ {context value error}, Context.Obeys options context → (context.relimited other).Obeys other →
      action.Yields context value (effect context) →
      action.Stops (context.relimited other) error (context.relimited other) →
      error = .stackOverflow other.maxDepth ∧ other.maxDepth < (effect context).stack.peak ∨
        other.bufferCapacity < options.bufferCapacity ∧ other.bufferCapacity < (effect context).virtual.size) :
    (besideLimits options other).Respects action where
  advances := by
    intro context obeys
    obtain ⟨value, yields⟩ | ⟨error, stops⟩ := effective.settles obeys.sound
    · rw [yields.2]
      exact effective.grows obeys yields
    · rw [stops.2]
      exact ⟨obeys, Nat.le_refl _, Nat.le_refl _⟩
  agrees := by
    rintro _ right ⟨rfl, obeys, otherObeys⟩
    obtain ⟨value, yields⟩ | ⟨error, stops⟩ := effective.settles obeys.sound
    · obtain ⟨given, otherYields⟩ | ⟨error, stops⟩ := effective.settles otherObeys.sound
      · obtain rfl := effective.same yields otherYields
        refine .alike (otherYields.1.trans yields.1.symm) ?_
        rw [otherYields.2, yields.2]
        exact ⟨effective.commutes other right, (effective.grows obeys yields).1,
          (effective.grows otherObeys otherYields).1⟩
      · refine .lapsed stops.1 ?_
        rw [yields.2]
        exact ⟨(effective.grows obeys yields).1, cause obeys otherObeys yields stops⟩
    · exact .excused stops.1 trivial

end Emission.Effective

namespace Emission

theorem append_effective (text : String) : Effective (append text) fun context => context.appended text where
  settles := by
    intro context sound
    obtain ⟨value, after, yields⟩ | ⟨error, after, stops⟩ := (append text).yields_or_stops context
    · obtain ⟨-, rfl⟩ := append_yields yields
      exact .inl ⟨value, yields⟩
    · obtain ⟨-, -, rfl⟩ := append_stops sound.reliable stops
      exact .inr ⟨error, stops⟩
  preserves := Context.bounds_progression.append text
  sound := fun sound => sound.appended text
  peak := by
    intro context value yields
    rw [Context.peak_appended]
    omega
  text := by
    intro context
    rw [Context.virtual_appended, ByteArray.size_append]
    exact Nat.le_add_right _ _
  commutes := fun options context => context.appended_relimited options text
  same := fun _ _ => rfl

theorem push_effective (construct : Construct) :
    Effective (push construct) fun context => context.opened construct where
  settles := by
    intro context sound
    obtain ⟨value, after, yields⟩ | ⟨error, after, stops⟩ := (push construct).yields_or_stops context
    · obtain ⟨-, rfl⟩ := push_yields_iff.mp yields
      exact .inl ⟨value, yields⟩
    · obtain ⟨-, -, rfl⟩ := push_stops_iff.mp stops
      exact .inr ⟨error, stops⟩
  preserves := Context.bounds_progression.push construct
  sound := fun sound => sound.opened construct
  peak := by
    intro context value yields
    have room := (push_yields_iff.mp yields).1
    rw [Context.peak_opened]
    omega
  text := fun context => Nat.le_of_eq (by rw [Context.virtual_opened])
  commutes := fun options context => context.opened_relimited options construct
  same := fun _ _ => rfl

theorem merge_effective (count : Nat) : Effective (merge count) fun context => context.merged count where
  settles := by
    intro context sound
    obtain ⟨value, after, yields⟩ | ⟨error, after, stops⟩ := (merge count).yields_or_stops context
    · obtain ⟨-, -, -, -, rfl⟩ := merge_yields_iff.mp yields
      exact .inl ⟨value, yields⟩
    · obtain rfl := merge_stops_unchanged sound.uniform stops
      exact .inr ⟨error, stops⟩
  preserves := Context.bounds_progression.merge count
  sound := fun sound => ⟨sound.reliable, sound.uniform.absorbedTimes _⟩
  peak := by
    intro context value yields
    rw [Context.peak_merged]
    omega
  text := fun context => Nat.le_of_eq (by rw [Context.virtual_merged])
  commutes := fun options context => context.merged_relimited options count
  same := fun _ _ => rfl

theorem close_effective : Effective close Context.closed where
  settles := by
    intro context sound
    obtain ⟨construct, after, yields⟩ | ⟨error, after, stops⟩ := close.yields_or_stops context
    · obtain ⟨-, -, rfl⟩ := close_yields yields
      exact .inl ⟨construct, yields⟩
    · obtain rfl := close_stops_unchanged sound.reliable stops
      exact .inr ⟨error, stops⟩
  preserves := Context.bounds_progression.close
  sound := fun sound => sound.closed
  peak := by
    intro context construct yields
    rw [Context.peak_closed]
    omega
  text := fun context => Nat.le_of_eq (by rw [Context.virtual_closed])
  commutes := fun options context => context.closed_relimited options
  same := by
    intro options context construct given yields otherYields
    obtain ⟨-, head, -⟩ := close_yields yields
    obtain ⟨-, otherHead, -⟩ := close_yields otherYields
    rw [Context.outline_relimited, head] at otherHead
    exact (Option.some.inj otherHead).symm

variable {options other : Options}

theorem append_respects (text : String) : (besideLimits options other).Respects (append text) := by
  apply (append_effective text).respects
  intro context value error obeys otherObeys yields stops
  have fits := (append_yields yields).1
  have crowded := (append_stops otherObeys.sound.reliable stops).1
  cases levels : context.stack.levels with
  | nil => simp [Context.Fits, Context.relimited, BufferStack.relimited, levels] at crowded
  | cons level rest =>
    have capacity : level.capacity = options.bufferCapacity :=
      (obeys.sound.uniform level (by simp [levels])).trans (Prod.mk.inj obeys.bounds).2
    have held := context.totalSize_le_virtual
    simp only [Context.Fits, Context.relimited, BufferStack.relimited, levels, List.map_cons, Level.remaining,
      Level.resized, Level.size, Level.totalSize] at fits crowded held
    have size : text.toUTF8.size = text.utf8ByteSize := rfl
    -- What does not fit into the smaller level is there in the text of the other run.
    rw [Context.virtual_appended, ByteArray.size_append, size]
    omega

theorem push_respects (construct : Construct) : (besideLimits options other).Respects (push construct) := by
  apply (push_effective construct).respects
  intro context value error obeys otherObeys yields stops
  obtain ⟨full, rfl, -⟩ := push_stops_iff.mp stops
  have full : other.maxDepth ≤ context.stack.depth := by
    rwa [Context.relimited, BufferStack.depth_relimited] at full
  refine .inl ⟨rfl, ?_⟩
  rw [Context.peak_opened]
  omega

theorem merge_respects (count : Nat) : (besideLimits options other).Respects (merge count) := by
  apply (merge_effective count).respects
  intro context value error obeys otherObeys yields stops
  obtain ⟨valid, deep, fits, -, -⟩ := merge_yields_iff.mp yields
  have crowded : other.bufferCapacity < context.stack.innermostSize count := by
    apply Nat.lt_of_not_le
    intro room
    -- Levels that fit into one can be merged, so nothing else can stop the merge.
    have deep : count ≤ (context.stack.relimited other).depth := by rwa [BufferStack.depth_relimited]
    have fits : (context.stack.relimited other).innermostSize count ≤ other.bufferCapacity := by
      rw [BufferStack.innermostSize_relimited]
      omega
    have each := (context.stack.uniform_relimited other).absorbs deep fits
    have merges : (merge count).Yields (context.relimited other) () _ :=
      merge_yields_iff.mpr ⟨valid, deep, fits, each, rfl⟩
    exact merges.not_stops stops
  have held := context.totalSize_le_virtual
  have part : context.stack.innermostSize count ≤ Level.totalSize context.stack.levels :=
    Level.totalSize_take_le context.stack.levels count
  have capacity : context.stack.bufferCapacity = options.bufferCapacity := (Prod.mk.inj obeys.bounds).2
  rw [Context.virtual_merged]
  omega

theorem close_respects : (besideLimits options other).Respects close := by
  apply close_effective.respects
  intro context value error obeys otherObeys yields stops
  obtain ⟨closable, head, -⟩ := close_yields yields
  have crowded : ¬ (context.relimited other).Closable := by
    intro otherClosable
    have closes : close.Yields (context.relimited other) value _ :=
      (close_yields_iff otherObeys.sound.reliable).mpr ⟨otherClosable, by rwa [Context.outline_relimited], rfl⟩
    exact closes.not_stops stops
  match levels : context.stack.levels with
  | [] => exact absurd levels closable.buffered
  | [level] => simp [Context.Closable, Context.relimited, BufferStack.relimited, levels] at crowded
  | level :: parent :: rest =>
    have capacity : parent.capacity = options.bufferCapacity :=
      (obeys.sound.uniform parent (by simp [levels])).trans (Prod.mk.inj obeys.bounds).2
    have held := context.totalSize_le_virtual
    simp only [Context.Closable, BufferStack.Absorbs, Context.relimited, BufferStack.relimited, levels, List.map_cons,
      Level.remaining, Level.resized, Level.size, Level.totalSize] at closable crowded held
    rw [Context.virtual_closed]
    omega

end Emission

/-- Every step respects the comparison of runs under different limits. -/
def relimiting (options other : Options) (sameStyle : other.annotate = options.annotate) : EmissionComparison where
  toComparison := besideLimits options other
  outline_eq := by
    rintro _ right ⟨rfl, -⟩
    exact right.outline_relimited other
  pool_eq := by
    rintro _ right ⟨rfl, -⟩
    rfl
  labels_eq := by
    rintro _ right ⟨rfl, -⟩
    rfl
  related_with := by
    rintro _ right pool labels ⟨rfl, obeys, otherObeys⟩
    exact ⟨rfl, { obeys with sound := ⟨obeys.sound.reliable, obeys.sound.uniform⟩ },
      { otherObeys with sound := ⟨otherObeys.sound.reliable, otherObeys.sound.uniform⟩ }⟩
  later_with := by
    intro context pool labels obeys
    exact ⟨{ obeys with sound := ⟨obeys.sound.reliable, obeys.sound.uniform⟩ }, Nat.le_refl _, Nat.le_refl _⟩
  append := Emission.append_respects
  emitFragment := by
    apply Comparison.respects_emitFragment _ Emission.append_respects
    rintro _ right ⟨rfl, obeys, -⟩
    rw [obeys.options_eq]
    exact sameStyle
  push := Emission.push_respects
  merge := Emission.merge_respects
  close := Emission.close_respects

/-! ## Depths told by the summary -/

/-- A step of a script opens one level at most, and nothing it does afterwards hides that level. -/
theorem Step.peak_of_yields {step : Step} {context after : Context} {answer : Answer}
    (scripted : step.isScripted = true) (yields : step.perform.Yields context answer after) :
    after.stack.peak = max context.stack.peak after.stack.depth ∧ after.stack.peak ≤ context.stack.peak + 1 := by
  have unopened (same : after.stack.peak = context.stack.peak) :
      after.stack.peak = max context.stack.peak after.stack.depth ∧ after.stack.peak ≤ context.stack.peak + 1 := by
    have := after.stack.depth_le_peak
    omega
  have opened (higher : after.stack.peak = max context.stack.peak (context.stack.depth + 1))
      (deeper : after.stack.depth = context.stack.depth + 1) :
      after.stack.peak = max context.stack.peak after.stack.depth ∧ after.stack.peak ≤ context.stack.peak + 1 := by
    have := context.stack.depth_le_peak
    omega
  -- A step that opens a level ends with that level open, so its peak is seen afterwards.
  cases step with
  | emit operation =>
    obtain ⟨_, emits, -⟩ := Action.yields_map_iff.mp yields
    obtain ⟨-, rfl⟩ := Emission.emit_yields emits
    exact unopened (by simp)
  | push construct =>
    obtain ⟨_, pushes, -⟩ := Action.yields_map_iff.mp yields
    obtain ⟨-, rfl⟩ := Emission.push_yields_iff.mp pushes
    exact opened (context.peak_opened construct) rfl
  | merge count =>
    obtain ⟨_, merges, -⟩ := Action.yields_map_iff.mp yields
    obtain ⟨-, -, -, -, rfl⟩ := Emission.merge_yields_iff.mp merges
    exact unopened (by simp)
  | close =>
    obtain ⟨_, closes, -⟩ := Action.yields_map_iff.mp yields
    obtain ⟨-, -, rfl⟩ := Emission.close_yields closes
    exact unopened (by simp)
  | beginIf cond =>
    obtain ⟨_, begins, -⟩ := Action.yields_map_iff.mp yields
    obtain rfl := Emission.beginIf_yields begins
    apply opened
    · rw [Context.peak_opened, Context.peak_appended, Context.depth_appended]
      rfl
    · rw [Context.depth_opened, Context.depth_appended]
      rfl
  | beginElse =>
    obtain ⟨_, begins, -⟩ := Action.yields_map_iff.mp yields
    obtain ⟨_, _, _, -, rfl⟩ := Emission.beginElse_yields begins
    apply opened
    · rw [Context.peak_appended, Context.peak_opened, Context.peak_appended, Context.depth_appended]
    · rw [Context.depth_appended, Context.depth_opened, Context.depth_appended]
  | endIf =>
    obtain ⟨_, ends, -⟩ := Action.yields_map_iff.mp yields
    obtain ⟨_, _, _, -, -, -, rfl⟩ | ⟨_, _, _, -, -, rfl⟩ := Emission.endIf_yields ends
    · exact unopened (by simp)
    · exact unopened (by simp)
  | beginWhile =>
    obtain ⟨_, begins, -⟩ := Action.yields_map_iff.mp yields
    obtain rfl := Emission.beginWhile_yields begins
    apply opened
    · rw [Context.peak_appended, Context.peak_opened]
      rfl
    · rw [Context.depth_appended, Context.depth_opened]
      rfl
  | loopTest cond =>
    obtain ⟨_, tests, -⟩ := Action.yields_map_iff.mp yields
    obtain ⟨_, _, _, -, rfl⟩ := Emission.loopTest_yields tests
    exact unopened (by simp)
  | endWhile =>
    obtain ⟨_, ends, -⟩ := Action.yields_map_iff.mp yields
    obtain ⟨_, _, _, _, -, rfl, -, rfl⟩ := Emission.endWhile_yields ends
    exact unopened (by simp)
  | _ => cases scripted

namespace Replay

variable {index : Nat} {request : Request} {requests : List Request} {replay after : Replay} {value : Unit}

theorem apply_peak (yields : (apply index request).Yields replay value after) :
    (after.context.stack.peak = max replay.context.stack.peak after.context.stack.depth ∧
        after.context.stack.peak ≤ replay.context.stack.peak + 1) ∧
      after.summary = replay.summary := by
  simp only [Replay.apply, Action.yields_bind_iff, Action.yields_read_iff, Action.yields_ofExcept_iff,
    Action.yields_mapError_iff] at yields
  obtain ⟨_, _, ⟨rfl, rfl⟩, task, _, ⟨resolves, rfl⟩, performs⟩ := yields
  have untouched (stack : BufferStack) : stack.peak = max stack.peak stack.depth ∧ stack.peak ≤ stack.peak + 1 :=
    ⟨(Nat.max_eq_left stack.depth_le_peak).symm, Nat.le_succ _⟩
  cases task with
  | bindSlot name =>
    simp only [Replay.perform, Action.yields_bind_iff, yields_onContext_iff, Emission.alloc,
      Action.yields_reportingFailure_iff, Emission.yields_onPool_iff, Action.yields_update_iff] at performs
    obtain ⟨_, _, ⟨_, ⟨_, -, rfl⟩, rfl⟩, rfl⟩ := performs
    exact ⟨untouched _, rfl⟩
  | freeSlot name reg =>
    simp only [Replay.perform, Action.yields_bind_iff, yields_onContext_iff, Emission.free,
      Emission.yields_onPool_iff, Action.yields_update_iff] at performs
    obtain ⟨_, _, ⟨_, ⟨_, -, rfl⟩, rfl⟩, rfl⟩ := performs
    exact ⟨untouched _, rfl⟩
  | bindLabel name =>
    simp only [Replay.perform, Action.yields_bind_iff, yields_onContext_iff, Emission.newLabel_yields_iff,
      Action.yields_update_iff] at performs
    obtain ⟨_, _, ⟨_, ⟨rfl, rfl⟩, rfl⟩, rfl⟩ := performs
    exact ⟨untouched _, rfl⟩
  | step step =>
    simp only [Replay.perform, Action.yields_bind_iff, yields_onContext_iff, Action.yields_pure_iff] at performs
    obtain ⟨_, _, ⟨_, steps, rfl⟩, _, rfl⟩ := performs
    exact ⟨Step.peak_of_yields (Names.resolve_step resolves) steps, rfl⟩

/-- The summary tells the most levels that were open at once, although it looks between requests only. -/
theorem applyAll_peak (told : replay.summary.maxDepth = replay.context.stack.peak)
    (yields : (applyAll index requests).Yields replay value after) :
    after.summary.maxDepth = after.context.stack.peak := by
  induction requests generalizing index replay with
  | nil =>
    obtain ⟨-, rfl⟩ := Action.yields_pure_iff.mp yields
    exact told
  | cons request rest ih =>
    obtain ⟨middle, applies, others⟩ := applyAll_cons_yields yields
    obtain ⟨⟨peak, -⟩, summary⟩ := apply_peak applies
    refine ih ?_ others
    -- Looking once after each request misses nothing.
    show max middle.summary.maxDepth middle.context.stack.depth = middle.context.stack.peak
    rw [summary, told, peak]

/-- Each request of a run that succeeds takes up where the ones before it left off. -/
theorem applyAll_take_succ {position : Nat} (yields : (applyAll index requests).Yields replay value after)
    (present : requests[position]? = some request) :
    ∃ middle, (apply (index + position) request).Yields (applyAll index (requests.take position) replay).state () middle ∧
      (applyAll index (requests.take (position + 1)) replay).state = middle.tally := by
  induction requests generalizing index replay position with
  | nil => simp at present
  | cons first rest ih =>
    obtain ⟨middle, applies, others⟩ := applyAll_cons_yields yields
    obtain ⟨ok, rfl⟩ := applies
    cases position with
    | zero =>
      obtain rfl : first = request := by simpa using present
      exact ⟨_, ⟨ok, rfl⟩, (applyAll_cons_of_ok [] ok).2⟩
    | succ position =>
      have further : index + (position + 1) = index + 1 + position := by omega
      rw [List.take_succ_cons, List.take_succ_cons, (applyAll_cons_of_ok _ ok).2, (applyAll_cons_of_ok _ ok).2, further]
      exact ih others (by simpa using present)

end Replay

/-! ## Whole replays -/

namespace Script

open Replay

variable {script : Script} {options other : Options}

theorem obeys_start (options : Options) : (Context.start options {}).Obeys options where
  sound := ⟨rfl, by simp [BufferStack.Uniform, Context.start]⟩
  options_eq := rfl
  bounds := rfl
  peak_le := Nat.zero_le _
  flushes := rfl

theorem related_begun (sameStyle : other.annotate = options.annotate) :
    (relimiting options other sameStyle).onReplay.Related (fresh other).begun (fresh options).begun := by
  have starts : (relimiting options other sameStyle).onReplay.Related (fresh other) (fresh options) :=
    ⟨rfl, rfl, rfl, obeys_start options, obeys_start other⟩
  have opens := opening_yields options
  have otherOpens := opening_yields other
  have respects := ((relimiting options other sameStyle).onContext
    ((relimiting options other sameStyle).emitFragment .prolog)).mapError (ReplayError.emission 0 "prolog")
  cases respects.agrees starts with
  | alike same related => exact otherOpens.2 ▸ opens.2 ▸ related
  | lapsed stopped _ => cases otherOpens.1.symm.trans stopped
  | excused stopped _ => cases opens.1.symm.trans stopped

/-- More requests only lead further, within the limits. -/
theorem later_of_partway (script : Script) (options : Options) {count more : Nat} (fewer : count ≤ more) :
    (script.partway options count).context.stack.peak ≤ (script.partway options more).context.stack.peak ∧
      (script.partway options count).context.virtual.size ≤ (script.partway options more).context.virtual.size := by
  have begun : (relimiting options options rfl).onReplay.Related (fresh options).begun (fresh options).begun :=
    related_begun rfl
  have begins : (script.partway options 0).context.Obeys options := begun.2.2.2.1
  have obeys := ((relimiting options options rfl).later_partway script options (Nat.zero_le count) begins).1
  exact ((relimiting options options rfl).later_partway script options fewer obeys).2

/-- A request goes no deeper on its way than it stands before or after, and opens one level at most. -/
theorem peak_partway_succ {index : Nat} {request : Request} {requested : Replay}
    (applies : (applyAll 0 script.requests).Yields (fresh options).begun () requested)
    (present : script.requests[index]? = some request) :
    (script.partway options (index + 1)).context.stack.peak =
        max (script.partway options index).context.stack.peak (script.partway options (index + 1)).context.stack.depth ∧
      (script.partway options (index + 1)).context.stack.peak ≤
        (script.partway options index).context.stack.peak + 1 := by
  obtain ⟨middle, requestApplies, isNext⟩ := applyAll_take_succ applies present
  have next : (script.partway options (index + 1)).context = middle.context := by
    rw [partway, ← fresh, isNext]
    rfl
  rw [next]
  exact (apply_peak requestApplies).1

/-- What a script that succeeds under `options` comes to under others. -/
inductive UnderLimits (script : Script) (options other : Options) : Prop
  | succeeds (ok : (script.replay other {}).result = .ok ())
      (deep : (script.replay options {}).state.summary.maxDepth ≤ other.maxDepth)
  | tooDeep (index : Nat) (request : Request) (present : script.requests[index]? = some request)
      (before : ∀ count ≤ index, (script.partway options count).context.stack.depth ≤ other.maxDepth)
      (beyond : (script.partway options (index + 1)).context.stack.depth = other.maxDepth + 1)
      (deep : other.maxDepth < (script.replay options {}).state.summary.maxDepth)
      (stopped : (script.replay other {}).result = .error (.emission index request.name (.stackOverflow other.maxDepth)))
  | tooLarge (less : other.bufferCapacity < options.bufferCapacity)
      (large : other.bufferCapacity < (script.fullText options).size)

theorem underLimits (succeeds : (script.replay options {}).result = .ok ())
    (sameStyle : other.annotate = options.annotate) : script.UnderLimits options other := by
  obtain ⟨requested, applies, unbuffered, -, summary⟩ := run_yields ⟨succeeds, rfl⟩
  have whole : script.partway options script.requests.length = requested := by rw [partway_length]; exact applies.2
  have peak : (script.replay options {}).state.summary.maxDepth = requested.context.stack.peak := by
    rw [replay, summary]
    show requested.summary.maxDepth = requested.context.stack.peak
    exact applyAll_peak rfl applies
  have agrees : (relimiting options other sameStyle).AgreesOn 0 script.requests (fresh other).begun (fresh options).begun :=
    (relimiting options other sameStyle).applyAll_agrees (related_begun sameStyle)
  cases agrees with
  | excused stopped _ => cases applies.1.symm.trans stopped
  | alike same related =>
    have otherApplies : (applyAll 0 script.requests).Yields (fresh other).begun () _ := ⟨same.trans applies.1, rfl⟩
    have isRequested : (applyAll 0 script.requests (fresh options).begun).state = requested := applies.2
    rw [isRequested] at related
    have limited : requested.context.stack.peak ≤ other.maxDepth := peak_le_of_related related.2.2
    obtain ⟨-, -, isRelimited, -, otherObeys⟩ := related
    refine .succeeds ?_ (by rwa [peak])
    have ends := run_ends (fresh other) rfl rfl otherApplies ⟨otherObeys.sound.reliable, otherObeys.flushes⟩
    have closed : (applyAll 0 script.requests (fresh other).begun).state.context.stack.levels = [] := by
      rw [isRelimited]
      simp [Context.relimited, BufferStack.relimited, unbuffered]
    rw [if_pos closed] at ends
    exact ends
  | lapsed position request cause present related stopped lapse =>
    have refused : (applyAll 0 script.requests).Stops (fresh other).begun _ _ := ⟨stopped, rfl⟩
    have stops := run_stops (fresh other) rfl rfl refused
    rw [Nat.zero_add] at stops
    have within : position + 1 ≤ script.requests.length := (List.getElem?_eq_some_iff.mp present).1
    have later := script.later_of_partway options within
    rw [whole] at later
    obtain ⟨-, ⟨rfl, deep⟩ | ⟨less, large⟩⟩ := lapse
    -- The runs were alike up to this request, so the depth was within the other limit until then.
    · have deep : other.maxDepth < (script.partway options (position + 1)).context.stack.peak := deep
      have limited : (script.partway options position).context.stack.peak ≤ other.maxDepth :=
        peak_le_of_related related.2.2
      refine .tooDeep position request present ?_ ?_ (by omega) stops
      · intro count fewer
        have lower := (script.later_of_partway options fewer).1
        have := (script.partway options count).context.stack.depth_le_peak
        omega
      · obtain ⟨higher, atMost⟩ := peak_partway_succ applies present
        omega
    · have large : other.bufferCapacity < (script.partway options (position + 1)).context.virtual.size := large
      obtain ⟨more, full⟩ := script.fullText_eq options (Nat.le_refl _)
      apply UnderLimits.tooLarge less
      -- No level is open after the last request, so all the text there is by then is written.
      rw [full, ByteArray.size_append, whole, ← Context.virtual_of_unbuffered unbuffered]
      omega

theorem maxDepth_le (succeeds : (script.replay options {}).result = .ok ()) :
    (script.replay options {}).state.summary.maxDepth ≤ options.maxDepth := by
  have under : script.UnderLimits options options := underLimits succeeds rfl
  cases under with
  | succeeds _ deep => exact deep
  | tooDeep _ _ _ _ _ _ stopped => cases succeeds.symm.trans stopped
  | tooLarge less _ => exact absurd less (Nat.lt_irrefl options.bufferCapacity)

end Script

end MipsBackend
