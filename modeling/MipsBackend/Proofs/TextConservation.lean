import MipsBackend.Proofs.ControlEffects
import MipsBackend.Proofs.Reachability

/-! # Conservation of text

No step of a session loses, repeats or reorders text, whether it succeeds or fails.

* `Step.fragments`: what a step emits when it succeeds.
* `Context.Extends`: a context that came of another by adding a text at the end.
* `Emission.AddsWhole`, `Emission.Adds`: success adds a text; failure adds nothing of it, or a first part of
  the fragments it is made of. `Emission.Adds.bind` composes them, so each control step is read off its
  definition.
* `session_conserves_text`: every step of every session on a stream that never fails.
-/

namespace MipsBackend

/-! ## What a step emits -/

/-- The data section of a table, which only a table without gaps has. -/
def StringTable.sections (table : StringTable) : List Fragment :=
  match table.entries with
  | .ok entries => [.dataSection entries]
  | .error _ => []

namespace Step

/-- The operations that a control step emits where the innermost construct admits it. -/
def operations (context : Context) : Step → List Operation
  | beginIf cond => [.beq cond .zero context.labels.peek]
  | beginElse =>
    match context.outline with
    | .conditional elseLabel endLabel false :: _ => [.jump endLabel, .place elseLabel]
    | _ => []
  | endIf =>
    match context.outline with
    | .conditional _ endLabel true :: _ => [.place endLabel]
    | .conditional elseLabel _ false :: _ => [.place elseLabel]
    | _ => []
  | beginWhile => [.place context.labels.peek]
  | loopTest cond =>
    match context.outline with
    | .loop _ exitLabel :: _ => [.beq cond .zero exitLabel]
    | _ => []
  | endWhile =>
    match context.outline with
    | .loop entryLabel exitLabel :: _ => [.jump entryLabel, .place exitLabel]
    | _ => []
  | _ => []

/-- The whole instructions that a step emits when it succeeds, in order. -/
def fragments (context : Context) : Step → List Fragment
  | appendAll insts => [⟨none, insts⟩]
  | emit operation => [operation.fragment]
  | prolog => [.prolog]
  | epilog => [.epilog]
  | stringLiterals table => table.sections
  | finish table => .epilog :: table.sections
  | step => (step.operations context).map Operation.fragment

/-- The text that a step emits when it succeeds. -/
def text (context : Context) : Step → String
  | append text => text
  | step => Fragment.allText context.options.annotate (step.fragments context)

/-- What a step is to the text of a context. -/
inductive Role
  /-- It handles registers, labels and levels, or only looks at the context. -/
  | silent
  /-- It emits in one piece. -/
  | emitting
  /-- It is made of several primitive steps, so it can fail halfway. -/
  | compound
  /-- It gives up the levels with their text. -/
  | discarding
deriving DecidableEq

def role : Step → Role
  | alloc | free _ | isFree _ | busy | label | peek | options | push _ | merge _ | close | isBuffered | top
  | enclosing => .silent
  | append _ | appendAll _ | emit _ | prolog | epilog | stringLiterals _ => .emitting
  | finish _ | beginIf _ | beginElse | endIf | beginWhile | loopTest _ | endWhile => .compound
  | reset | release => .discarding

end Step

/-! ## Levels of one capacity -/

theorem Level.totalSize_take_le (levels : List Level) (count : Nat) :
    totalSize (levels.take count) ≤ totalSize levels := by
  induction levels generalizing count with
  | nil => simp
  | cons level rest ih =>
    cases count with
    | zero => exact Nat.zero_le _
    | succ count =>
      have := ih count
      simp only [List.take_succ_cons, totalSize]
      omega

namespace BufferStack

/-- Every level holds what the stack says a level holds. -/
def Uniform (stack : BufferStack) : Prop := ∀ level ∈ stack.levels, level.capacity = stack.bufferCapacity

theorem bufferCapacity_absorbed (stack : BufferStack) :
    stack.absorbed.bufferCapacity = stack.bufferCapacity := by
  unfold absorbed; split <;> rfl

theorem Uniform.absorbed {stack : BufferStack} (uniform : stack.Uniform) : stack.absorbed.Uniform := by
  intro level member
  rw [bufferCapacity_absorbed]
  match shape : stack.levels with
  | [] | [_] =>
    have same : stack.absorbed = stack := by simp [BufferStack.absorbed, shape]
    exact uniform level (by rwa [same] at member)
  | inner :: outer :: rest =>
    simp only [BufferStack.absorbed, shape, List.mem_cons] at member
    obtain rfl | member := member
    · exact uniform outer (by simp [shape])
    · exact uniform level (by simp [shape, member])

theorem Uniform.absorbedTimes {stack : BufferStack} (uniform : stack.Uniform) (steps : Nat) :
    (stack.absorbedTimes steps).Uniform := by
  induction steps generalizing stack with
  | zero => exact uniform
  | succ steps ih => exact ih uniform.absorbed

theorem innermostSize_absorbed (stack : BufferStack) (more : Nat) :
    stack.absorbed.innermostSize (more + 1) = stack.innermostSize (more + 2) := by
  match shape : stack.levels with
  | [] => simp [BufferStack.absorbed, innermostSize, shape]
  | [level] => simp [BufferStack.absorbed, innermostSize, shape]
  | inner :: outer :: rest =>
    simp only [BufferStack.absorbed, innermostSize, shape, List.take, Level.totalSize, Level.size_extend]
    simp only [Level.size]
    omega

/-- Levels that fit into one can be merged one by one: each merge has room for the rest. -/
theorem Uniform.absorbs {stack : BufferStack} (uniform : stack.Uniform) {count : Nat}
    (deep : count ≤ stack.depth) (fits : stack.innermostSize count ≤ stack.bufferCapacity) :
    ∀ done < count - 1, (stack.absorbedTimes done).Absorbs := by
  intro done below
  obtain ⟨more, rfl⟩ := Nat.exists_eq_add_of_le' (show 2 ≤ count by omega)
  induction done generalizing stack more with
  | zero =>
    match shape : stack.levels with
    | [] | [_] => simp [depth, shape] at deep
    | inner :: outer :: rest =>
      have capacity := uniform outer (by simp [shape])
      simp only [innermostSize, shape, List.take, Level.totalSize] at fits
      have room : inner.size ≤ outer.remaining := by
        unfold Level.remaining
        omega
      rwa [Absorbs, BufferStack.absorbedTimes, shape]
  | succ done ih =>
    obtain ⟨fewer, rfl⟩ := Nat.exists_eq_add_of_le' (show 1 ≤ more by omega)
    have lower := stack.depth_absorbed (by omega)
    refine ih uniform.absorbed fewer (by omega) ?_ (by omega)
    rwa [innermostSize_absorbed, bufferCapacity_absorbed]

/-- A refused merge changes nothing, as no merge of uniform levels stops halfway. -/
theorem merge_stops_unchanged {stack after : BufferStack} {count : Nat} {error : EmitError}
    (uniform : stack.Uniform) (stops : (merge count).Stops stack error after) : after = stack := by
  by_cases invalid : count < 2 ∨ stack.depth < count
  · exact stops.2.symm.trans (merge_of_invalid invalid).2
  by_cases crowded : stack.bufferCapacity < stack.innermostSize count
  · exact stops.2.symm.trans (merge_of_crowded (by omega) (by omega) crowded).2
  · have fits : stack.innermostSize count ≤ stack.bufferCapacity := by omega
    have yields : (merge count).Yields stack () _ :=
      merge_yields_iff.mpr ⟨by omega, by omega, fits, uniform.absorbs (by omega) fits, rfl⟩
    exact absurd stops yields.not_stops

end BufferStack

/-! ## Contexts that grow at the end -/

namespace Context

/-- The stream takes all it is given, and every level holds the same amount. -/
structure Sound (context : Context) : Prop where
  reliable : context.stream.limit = none
  uniform : context.stack.Uniform

@[simp] theorem levels_appended_eq_nil_iff {context : Context} {text : String} :
    (context.appended text).stack.levels = [] ↔ context.stack.levels = [] := by
  unfold appended; split <;> simp_all

theorem stream_appended {context : Context} (text : String) (buffered : context.stack.levels ≠ []) :
    (context.appended text).stream = context.stream := by
  unfold appended; split <;> simp_all

theorem Closable.buffered {context : Context} (closable : context.Closable) : context.stack.levels ≠ [] := by
  intro levels
  simp [Closable, BufferStack.Absorbs, levels] at closable

/-- Closing a level leaves the stream alone unless it was the last one. -/
theorem closed_or (context : Context) :
    context.closed.stack.levels = [] ∨ context.closed.stream = context.stream := by
  unfold closed
  split
  next => exact .inl rfl
  next => exact .inr rfl

namespace Sound

variable {context : Context}

theorem appended (sound : context.Sound) (text : String) : (context.appended text).Sound where
  reliable := by simpa using sound.reliable
  uniform := by
    have uniform := sound.uniform
    cases levels : context.stack.levels with
    | nil => simp [Context.appended, levels, BufferStack.Uniform]
    | cons level rest => simpa [Context.appended, levels, BufferStack.Uniform] using uniform

theorem opened (sound : context.Sound) (construct : Construct) : (context.opened construct).Sound where
  reliable := sound.reliable
  uniform := by
    have uniform := sound.uniform
    simpa [Context.opened, BufferStack.Uniform] using uniform

theorem closed (sound : context.Sound) : context.closed.Sound where
  reliable := by simpa using sound.reliable
  uniform := by
    match levels : context.stack.levels with
    | [level] => simp [Context.closed, levels, BufferStack.Uniform]
    | [] | _ :: _ :: _ => simpa [Context.closed, levels] using sound.uniform.absorbed

end Sound

/-- The context came of `base` by adding `text` at the end. Once levels were open, the stream got none of it
before the last of them was gone. -/
structure Extends (base : Context) (text : String) (context : Context) : Prop where
  virtual_eq : context.virtual = base.virtual ++ text.toUTF8
  options_eq : context.options = base.options
  sound : context.Sound
  held : base.stack.levels ≠ [] → context.stack.levels = [] ∨ context.stream = base.stream

namespace Extends

variable {base context : Context} {text : String}

theorem refl (sound : base.Sound) : base.Extends "" base where
  virtual_eq := by simp
  options_eq := rfl
  sound := sound
  held := fun _ => .inr rfl

/-- While levels stay open, the stream is as it was. -/
theorem stream_eq (grown : base.Extends text context) (opened : base.stack.levels ≠ [])
    (still : context.stack.levels ≠ []) : context.stream = base.stream :=
  (grown.held opened).resolve_left still

theorem numbered (grown : base.Extends text context) : base.Extends text context.numbered :=
  ⟨grown.virtual_eq, grown.options_eq, ⟨grown.sound.reliable, grown.sound.uniform⟩, grown.held⟩

theorem pool (grown : base.Extends text context) (pool : RegisterPool) :
    base.Extends text { context with pool } :=
  ⟨grown.virtual_eq, grown.options_eq, ⟨grown.sound.reliable, grown.sound.uniform⟩, grown.held⟩

theorem appended (grown : base.Extends text context) (more : String) :
    base.Extends (text ++ more) (context.appended more) where
  virtual_eq := by simp [grown.virtual_eq, ByteArray.append_assoc]
  options_eq := by simpa using grown.options_eq
  sound := grown.sound.appended more
  held := by
    intro opened
    by_cases levels : context.stack.levels = []
    · exact .inl (by simpa using levels)
    · exact .inr ((stream_appended more levels).trans (grown.stream_eq opened levels))

theorem opened (grown : base.Extends text context) (construct : Construct)
    (still : base.stack.levels ≠ [] → context.stack.levels ≠ []) :
    base.Extends text (context.opened construct) where
  virtual_eq := by simpa using grown.virtual_eq
  options_eq := grown.options_eq
  sound := grown.sound.opened construct
  held := fun opened => .inr (grown.stream_eq opened (still opened))

theorem merged (grown : base.Extends text context) (count : Nat) (still : context.stack.levels ≠ []) :
    base.Extends text (context.merged count) where
  virtual_eq := by simpa using grown.virtual_eq
  options_eq := grown.options_eq
  sound := ⟨grown.sound.reliable, grown.sound.uniform.absorbedTimes _⟩
  held := fun opened => .inr (grown.stream_eq opened still)

theorem closed (grown : base.Extends text context) (closable : context.Closable) :
    base.Extends text context.closed where
  virtual_eq := by simpa using grown.virtual_eq
  options_eq := by simpa using grown.options_eq
  sound := grown.sound.closed
  held := by
    intro opened
    have same := grown.stream_eq opened closable.buffered
    exact context.closed_or.imp id fun kept => kept.trans same

end Extends

end Context

/-! ## Actions that add text -/

namespace Emission

variable {α β : Type} {base context : Context} {done : String}

/-- After `done` was added since `base`, success of the action adds `text`, and failure nothing. -/
structure AddsWhole (base : Context) (done : String) (context : Context) (action : Emission α)
    (text : String) : Prop where
  yields : ∀ {value after}, action.Yields context value after → base.Extends (done ++ text) after
  stops : ∀ {error after}, action.Stops context error after → base.Extends done after

/-- After `done` was added since `base`, success of the action adds all fragments, and failure the first few
of them. -/
structure Adds (base : Context) (done : String) (context : Context) (action : Emission α)
    (fragments : List Fragment) : Prop where
  yields : ∀ {value after}, action.Yields context value after →
    base.Extends (done ++ Fragment.allText base.options.annotate fragments) after
  stops : ∀ {error after}, action.Stops context error after →
    ∃ part, part <+: fragments ∧ base.Extends (done ++ Fragment.allText base.options.annotate part) after

theorem AddsWhole.adds {action : Emission α} {fragments : List Fragment}
    (whole : AddsWhole base done context action (Fragment.allText base.options.annotate fragments)) :
    Adds base done context action fragments where
  yields := whole.yields
  stops := by
    intro error after stops
    refine ⟨[], List.nil_prefix, ?_⟩
    simpa using whole.stops stops

theorem AddsWhole.silent {action : Emission α} (whole : AddsWhole base done context action "") :
    Adds base done context action [] :=
  whole.adds

theorem AddsWhole.map {action : Emission α} {text : String} (f : α → β)
    (whole : AddsWhole base done context action text) :
    AddsWhole base done context (f <$> action) text where
  yields := by
    intro value after yields
    obtain ⟨given, yields, -⟩ := Action.yields_map_iff.mp yields
    exact whole.yields yields
  stops := fun stops => whole.stops (Action.stops_map_iff.mp stops)

theorem Adds.map {action : Emission α} {fragments : List Fragment} (f : α → β)
    (adds : Adds base done context action fragments) : Adds base done context (f <$> action) fragments where
  yields := by
    intro value after yields
    obtain ⟨given, yields, -⟩ := Action.yields_map_iff.mp yields
    exact adds.yields yields
  stops := fun stops => adds.stops (Action.stops_map_iff.mp stops)

theorem AddsWhole.reportingFailure {action : Emission α} {text : String} {describe : Context → List Event}
    (whole : AddsWhole base done context action text) :
    AddsWhole base done context (action.reportingFailure describe) text where
  yields := fun yields => whole.yields (Action.yields_reportingFailure_iff.mp yields)
  stops := fun stops => whole.stops (Action.stops_reportingFailure_iff.mp stops)

/-- A sequence that fails in its second part has added all of the first. -/
theorem Adds.bind {action : Emission α} {next : α → Emission β} {first second : List Fragment}
    (adds : Adds base done context action first)
    (more : ∀ value after, action.Yields context value after →
      base.Extends (done ++ Fragment.allText base.options.annotate first) after →
      Adds base (done ++ Fragment.allText base.options.annotate first) after (next value) second) :
    Adds base done context (action >>= next) (first ++ second) where
  yields := by
    intro value after yields
    obtain ⟨given, middle, begins, ends⟩ := Action.yields_bind_iff.mp yields
    have grown := (more given middle begins (adds.yields begins)).yields ends
    rwa [String.append_assoc, ← Fragment.allText_append] at grown
  stops := by
    intro error after stops
    obtain early | ⟨given, middle, begins, late⟩ := Action.stops_bind_iff.mp stops
    · obtain ⟨part, isPrefix, grown⟩ := adds.stops early
      exact ⟨part, isPrefix.trans (List.prefix_append first second), grown⟩
    · obtain ⟨part, isPrefix, grown⟩ := (more given middle begins (adds.yields begins)).stops late
      refine ⟨first ++ part, (List.prefix_append_right_inj first).mpr isPrefix, ?_⟩
      rwa [String.append_assoc, ← Fragment.allText_append] at grown

/-- A step that leaves the context as it is. -/
theorem addsWhole_of_unchanged {action : Emission α} (grown : base.Extends done context)
    (unchanged : (action context).state = context) : AddsWhole base done context action "" where
  yields := by
    rintro value after ⟨-, rfl⟩
    simpa [unchanged] using grown
  stops := by
    rintro error after ⟨-, rfl⟩
    rwa [unchanged]

theorem fail_adds (grown : base.Extends done context) (error : EmitError) {fragments : List Fragment} :
    Adds base done context (Action.fail error : Emission α) fragments where
  yields := fun yields => absurd yields Action.not_yields_fail
  stops := by
    intro given after stops
    obtain ⟨-, rfl⟩ := Action.stops_fail_iff.mp stops
    exact ⟨[], List.nil_prefix, by simpa using grown⟩

theorem onPool_addsWhole (grown : base.Extends done context) (action : Action EmitError RegisterPool α) :
    AddsWhole base done context (onPool action) "" where
  yields := by
    rintro value after ⟨-, rfl⟩
    rw [String.append_empty]
    exact grown.pool _
  stops := by
    rintro error after ⟨-, rfl⟩
    exact grown.pool _

theorem newLabel_addsWhole (grown : base.Extends done context) : AddsWhole base done context newLabel "" where
  yields := by
    intro label after yields
    obtain ⟨-, rfl⟩ := newLabel_yields_iff.mp yields
    simpa using grown.numbered
  stops := fun stops => absurd stops not_stops_newLabel

theorem append_addsWhole (grown : base.Extends done context) (text : String) :
    AddsWhole base done context (append text) text where
  yields := by
    intro value after yields
    obtain ⟨-, rfl⟩ := append_yields yields
    exact grown.appended text
  stops := by
    intro error after stops
    obtain ⟨-, -, rfl⟩ := append_stops grown.sound.reliable stops
    exact grown

theorem emitFragment_addsWhole (grown : base.Extends done context) (fragment : Fragment) :
    AddsWhole base done context (emitFragment fragment) (Fragment.allText base.options.annotate [fragment]) := by
  have whole := append_addsWhole grown (fragment.text context.options.annotate)
  have single : Fragment.allText base.options.annotate [fragment] = fragment.text context.options.annotate := by
    simp [Fragment.allText, Fragment.allEmitted, Fragment.text, grown.options_eq]
  rw [single]
  exact ⟨fun yields => whole.yields (emitFragment_yields_iff.mp yields),
    fun stops => whole.stops (emitFragment_stops_iff.mp stops)⟩

/-- Had the levels of `base` gone to the stream before, opening a new one would hide that the stream has changed. -/
theorem push_addsWhole (grown : base.Extends done context) (construct : Construct)
    (still : base.stack.levels ≠ [] → context.stack.levels ≠ []) :
    AddsWhole base done context (push construct) "" where
  yields := by
    intro value after yields
    obtain ⟨-, rfl⟩ := push_yields_iff.mp yields
    simpa using grown.opened construct still
  stops := by
    intro error after stops
    simp only [push, Action.stops_reportingFailure_iff, stops_onStack_iff, BufferStack.push_stops_iff] at stops
    obtain ⟨stack, ⟨-, -, rfl⟩, rfl⟩ := stops
    exact grown

theorem merge_stops_unchanged {after : Context} {count : Nat} {error : EmitError} (uniform : context.stack.Uniform)
    (stops : (merge count).Stops context error after) : after = context := by
  simp only [merge, Action.stops_reportingFailure_iff, stops_onStack_iff] at stops
  obtain ⟨stack, stops, rfl⟩ := stops
  obtain rfl := BufferStack.merge_stops_unchanged uniform stops
  rfl

theorem merge_addsWhole (grown : base.Extends done context) (count : Nat) :
    AddsWhole base done context (merge count) "" where
  yields := by
    intro value after yields
    obtain ⟨valid, deep, -, -, rfl⟩ := merge_yields_iff.mp yields
    have still : context.stack.levels ≠ [] := by
      intro levels
      simp only [BufferStack.depth, levels, List.length_nil] at deep
      omega
    simpa using grown.merged count still
  stops := by
    intro error after stops
    obtain rfl := merge_stops_unchanged grown.sound.uniform stops
    exact grown

theorem close_of_unbuffered (unbuffered : context.stack.levels = []) :
    close.Stops context .emptyStack context :=
  close_of_refused (by simp [closable, unbuffered])

theorem close_stops_unchanged {after : Context} {error : EmitError} (reliable : context.stream.limit = none)
    (stops : close.Stops context error after) : after = context := by
  by_cases levels : context.stack.levels = []
  · exact stops.2.symm.trans (close_of_unbuffered levels).2
  · exact (close_stops reliable (by simpa [Context.outline] using levels) stops).2

theorem close_addsWhole (grown : base.Extends done context) : AddsWhole base done context close "" where
  yields := by
    intro construct after yields
    obtain ⟨closable, -, rfl⟩ := close_yields yields
    simpa using grown.closed closable
  stops := by
    intro error after stops
    obtain rfl := close_stops_unchanged grown.sound.reliable stops
    exact grown

theorem topConstruct_addsWhole (grown : base.Extends done context) :
    AddsWhole base done context topConstruct "" where
  yields := by
    intro construct after yields
    obtain ⟨-, rfl⟩ := topConstruct_yields_iff.mp yields
    simpa using grown
  stops := by
    intro error after stops
    obtain ⟨-, -, rfl⟩ := topConstruct_stops_iff.mp stops
    exact grown

/-! ## Control steps -/

theorem emit_adds (grown : base.Extends done context) (operation : Operation) :
    Adds base done context (emit operation) [operation.fragment] :=
  (emitFragment_addsWhole grown operation.fragment).adds

theorem beginIf_adds (sound : context.Sound) (cond : Reg) :
    Adds context "" context (beginIf cond) ((Step.beginIf cond).fragments context) := by
  refine (newLabel_addsWhole (.refl sound)).silent.bind fun elseLabel middle yields grown => ?_
  obtain ⟨rfl, rfl⟩ := newLabel_yields_iff.mp yields
  refine (newLabel_addsWhole grown).silent.bind fun endLabel middle yields grown => ?_
  obtain ⟨rfl, rfl⟩ := newLabel_yields_iff.mp yields
  refine (emit_adds grown _).bind fun _ middle yields grown => ?_
  obtain ⟨-, rfl⟩ := emit_yields yields
  -- A push that fails leaves the branch behind, which jumps to a label that nothing places.
  refine (push_addsWhole grown _ fun opened => ?_).silent
  exact mt Context.levels_appended_eq_nil_iff.mp opened

theorem beginElse_adds (sound : context.Sound) :
    Adds context "" context beginElse (Step.beginElse.fragments context) := by
  refine (topConstruct_addsWhole (.refl sound)).silent.bind fun construct middle yields grown => ?_
  obtain ⟨head, rfl⟩ := topConstruct_yields_iff.mp yields
  obtain ⟨rest, outline⟩ := List.head?_eq_some_iff.mp head
  simp only [Step.operations, outline]
  match construct with
  | .conditional elseLabel endLabel false =>
    refine (emit_adds grown _).bind fun _ after yields grown => ?_
    obtain ⟨-, rfl⟩ := emit_yields yields
    refine (push_addsWhole grown _ (mt Context.levels_appended_eq_nil_iff.mp)).silent.bind fun _ _ _ grown => ?_
    exact emit_adds grown _
  | .conditional _ _ true | .loop _ _ => exact fail_adds grown _

theorem endIf_adds (sound : context.Sound) :
    Adds context "" context endIf (Step.endIf.fragments context) := by
  refine (topConstruct_addsWhole (.refl sound)).silent.bind fun construct middle yields grown => ?_
  obtain ⟨head, rfl⟩ := topConstruct_yields_iff.mp yields
  obtain ⟨rest, outline⟩ := List.head?_eq_some_iff.mp head
  simp only [Step.operations, outline]
  match construct with
  | .conditional elseLabel endLabel true =>
    refine (merge_addsWhole grown 2).silent.bind fun _ _ _ grown => ?_
    exact (close_addsWhole grown).silent.bind fun _ _ _ grown => emit_adds grown _
  | .conditional elseLabel endLabel false =>
    exact (close_addsWhole grown).silent.bind fun _ _ _ grown => emit_adds grown _
  | .loop _ _ => exact fail_adds grown _

theorem beginWhile_adds (sound : context.Sound) :
    Adds context "" context beginWhile (Step.beginWhile.fragments context) := by
  refine (newLabel_addsWhole (.refl sound)).silent.bind fun entryLabel middle yields grown => ?_
  obtain ⟨rfl, rfl⟩ := newLabel_yields_iff.mp yields
  refine (newLabel_addsWhole grown).silent.bind fun exitLabel middle yields grown => ?_
  obtain ⟨rfl, rfl⟩ := newLabel_yields_iff.mp yields
  refine (push_addsWhole grown _ id).silent.bind fun _ _ _ grown => ?_
  exact emit_adds grown _

theorem loopLabels_adds (grown : base.Extends done context) : Adds base done context loopLabels [] := by
  refine (topConstruct_addsWhole grown).silent.bind fun construct middle yields grown => ?_
  match construct with
  | .loop entryLabel exitLabel => exact (addsWhole_of_unchanged grown rfl).silent
  | .conditional _ _ _ => exact fail_adds grown _

theorem loopTest_adds (sound : context.Sound) (cond : Reg) :
    Adds context "" context (loopTest cond) ((Step.loopTest cond).fragments context) := by
  refine (loopLabels_adds (.refl sound)).bind fun labels middle yields grown => ?_
  obtain ⟨⟨rest, outline⟩, rfl⟩ := loopLabels_yields yields
  simp only [Step.operations, outline]
  exact emit_adds grown _

theorem endWhile_adds (sound : context.Sound) :
    Adds context "" context endWhile (Step.endWhile.fragments context) := by
  refine (loopLabels_adds (.refl sound)).bind fun labels middle yields grown => ?_
  obtain ⟨⟨rest, outline⟩, rfl⟩ := loopLabels_yields yields
  simp only [Step.operations, outline]
  refine (emit_adds grown _).bind fun _ _ _ grown => ?_
  refine (emit_adds grown _).bind fun _ _ _ grown => ?_
  exact ((close_addsWhole grown).map fun _ => ()).silent

/-! ## Framing a program -/

/-- A check in front of a step leaves it whole. -/
theorem AddsWhole.guarded {guard : Emission α} {action : α → Emission β} {text : String}
    (grown : base.Extends done context) (unchanged : (guard context).state = context)
    (whole : ∀ value, guard.Yields context value context → AddsWhole base done context (action value) text) :
    AddsWhole base done context (guard >>= action) text where
  yields := by
    intro value after yields
    obtain ⟨given, middle, passes, yields⟩ := Action.yields_bind_iff.mp yields
    obtain rfl : context = middle := unchanged.symm.trans passes.2
    exact (whole given passes).yields yields
  stops := by
    intro error after stops
    obtain ⟨-, rfl⟩ | ⟨given, middle, passes, stops⟩ := Action.stops_bind_iff.mp stops
    · rwa [unchanged]
    · obtain rfl : context = middle := unchanged.symm.trans passes.2
      exact (whole given passes).stops stops

theorem state_ensureUnbuffered (context : Context) : (ensureUnbuffered context).state = context := by
  by_cases unbuffered : context.stack.depth = 0 <;>
    simp [ensureUnbuffered, Bind.bind, Action.bind, unbuffered]

theorem epilog_addsWhole (grown : base.Extends done context) :
    AddsWhole base done context epilog (Fragment.allText base.options.annotate [.epilog]) :=
  .guarded grown (state_ensureUnbuffered context) fun _ _ => emitFragment_addsWhole grown _

theorem stringLiterals_addsWhole (grown : base.Extends done context) (table : StringTable) :
    AddsWhole base done context (stringLiterals table) (Fragment.allText base.options.annotate table.sections) := by
  refine .guarded grown (state_ensureUnbuffered context) fun _ _ => ?_
  refine .guarded grown rfl fun entries found => ?_
  refine .guarded grown rfl fun _ _ => ?_
  have sections : table.sections = [.dataSection entries] := by
    have stored := found.1
    cases known : table.entries with
    | error name => simp [known, Action.ofExcept] at stored
    | ok given =>
      obtain rfl : given = entries := by simpa [known, Action.ofExcept] using stored
      simp [StringTable.sections, known]
  rw [sections]
  exact emitFragment_addsWhole grown _

theorem finish_adds (sound : context.Sound) (table : StringTable) :
    Adds context "" context (finish table) ((Step.finish table).fragments context) := by
  refine (epilog_addsWhole (.refl sound)).adds.bind fun _ _ _ grown => ?_
  exact (stringLiterals_addsWhole grown table).adds

theorem state_release (context : Context) :
    (release context).state = { context with stack := context.stack.clear } := by
  cases fault : context.stream.flushFault <;>
    simp [release, onStack, Action.focus, Action.ofExcept, Bind.bind, Action.bind, Pure.pure, Action.pure,
      Stream.flush, fault]

end Emission

/-! ## Steps of a session -/

namespace Step

variable {context after : Context} {step : Step}

open Emission

/-- A step that is not made of several adds its text or nothing. -/
theorem perform_addsWhole (sound : context.Sound) (simple : step.role = .silent ∨ step.role = .emitting) :
    AddsWhole context "" context step.perform (step.text context) := by
  have grown := Context.Extends.refl sound
  cases step with
  | alloc => exact (onPool_addsWhole grown _).reportingFailure.map _
  | free reg => exact (onPool_addsWhole grown _).map _
  | isFree reg | busy | peek | options | isBuffered | enclosing => exact addsWhole_of_unchanged grown rfl
  | label => exact (newLabel_addsWhole grown).map _
  | push construct => exact (push_addsWhole grown construct id).map _
  | merge count => exact (merge_addsWhole grown count).map _
  | close => exact (close_addsWhole grown).map _
  | append text => exact (append_addsWhole grown text).map _
  | appendAll insts =>
    have single : (appendAll insts).text context = Inst.lines insts := by
      cases annotate : context.options.annotate <;>
        simp [text, fragments, annotate, Fragment.allText, Fragment.allEmitted, Fragment.emitted, Fragment.remark]
    rw [single]
    exact (append_addsWhole grown (Inst.lines insts)).map _
  | top =>
    have unchanged : (onStack BufferStack.top context).state = context := by
      cases levels : context.stack.levels <;> simp [onStack, Action.focus, BufferStack.top, levels]
    exact (addsWhole_of_unchanged grown unchanged).map _
  | emit operation => exact (emitFragment_addsWhole grown _).map _
  | prolog => exact (emitFragment_addsWhole grown _).map _
  | epilog => exact (epilog_addsWhole grown).map _
  | stringLiterals table => exact (stringLiterals_addsWhole grown table).map _
  | finish _ | beginIf _ | beginElse | endIf | beginWhile | loopTest _ | endWhile | reset | release =>
    simp [role] at simple

/-- A step that is made of several adds the first few of its fragments, and all of them if it succeeds. -/
theorem perform_adds (sound : context.Sound) (compound : step.role = .compound) :
    Adds context "" context step.perform (step.fragments context) := by
  cases step with
  | finish table => exact (finish_adds sound table).map _
  | beginIf cond => exact (beginIf_adds sound cond).map _
  | beginElse => exact (beginElse_adds sound).map _
  | endIf => exact (endIf_adds sound).map _
  | beginWhile => exact (beginWhile_adds sound).map _
  | loopTest cond => exact (loopTest_adds sound cond).map _
  | endWhile => exact (endWhile_adds sound).map _
  | _ => cases compound

theorem text_of_silent (context : Context) (silent : step.role = .silent) : step.text context = "" := by
  cases step <;> first | rfl | cases silent

theorem text_of_compound (context : Context) (compound : step.role = .compound) :
    step.text context = Fragment.allText context.options.annotate (step.fragments context) := by
  cases step with
  | append text => cases compound
  | _ => rfl

theorem perform_yields (sound : context.Sound) (keeps : step.role ≠ .discarding) {answer : Answer}
    (yields : step.perform.Yields context answer after) : context.Extends (step.text context) after := by
  match role : step.role with
  | .silent => simpa using (perform_addsWhole sound (.inl role)).yields yields
  | .emitting => simpa using (perform_addsWhole sound (.inr role)).yields yields
  | .compound =>
    rw [text_of_compound context role]
    simpa using (perform_adds sound role).yields yields
  | .discarding => exact absurd role keeps

theorem perform_stops (sound : context.Sound) (keeps : step.role ≠ .discarding) {error : EmitError}
    (stops : step.perform.Stops context error after) :
    ∃ part, part <+: step.fragments context ∧ (step.role ≠ .compound → part = []) ∧
      context.Extends (Fragment.allText context.options.annotate part) after := by
  match role : step.role with
  | .silent => exact ⟨[], List.nil_prefix, fun _ => rfl, (perform_addsWhole sound (.inl role)).stops stops⟩
  | .emitting => exact ⟨[], List.nil_prefix, fun _ => rfl, (perform_addsWhole sound (.inr role)).stops stops⟩
  | .compound => simpa using (perform_adds sound role).stops stops
  | .discarding => exact absurd role keeps

/-- Giving up the levels leaves the bytes on the stream, also when the stream cannot be completed. -/
theorem perform_discarding (context : Context) (discards : step.role = .discarding) :
    (step.perform context).state.stream = context.stream ∧ (step.perform context).state.stack.levels = [] := by
  cases step with
  | reset => exact ⟨rfl, context.stack.levels_clear⟩
  | release =>
    have state : (release.perform context).state = { context with stack := context.stack.clear } := by
      rw [← state_release]
      cases result : (Emission.release context).result <;>
        simp [perform, Functor.map, Action.bind, result, Action.pure]
    rw [state]
    exact ⟨rfl, context.stack.levels_clear⟩
  | _ => cases discards

/-- Every step leaves a sound context, a failed one included. -/
theorem perform_sound (sound : context.Sound) (step : Step) : (step.perform context).state.Sound := by
  by_cases discards : step.role = .discarding
  · obtain ⟨stream, levels⟩ := perform_discarding context discards
    exact ⟨by rw [stream]; exact sound.reliable, by simp [BufferStack.Uniform, levels]⟩
  · obtain ⟨answer, after, yields⟩ | ⟨error, after, stops⟩ := step.perform.yields_or_stops context
    · rw [yields.2]
      exact (perform_yields sound discards yields).sound
    · obtain ⟨part, -, -, grown⟩ := perform_stops sound discards stops
      rw [stops.2]
      exact grown.sound

/-- What a step makes of the text, by what it is and what comes of it. -/
structure Conserves (step : Step) (before : Context) (outcome : Outcome EmitError Context Answer) : Prop where
  /-- Registers, labels and levels are handled without a change to the text. -/
  silent : step.role = .silent → outcome.state.virtual = before.virtual
  /-- A step that succeeds adds its own text, at the end. -/
  succeeds : step.role ≠ .discarding → outcome.result.isOk = true →
    outcome.state.virtual = before.virtual ++ (step.text before).toUTF8
  /-- A step that emits in one piece emits nothing when it fails. -/
  refused : step.role = .emitting → outcome.result.isOk = false → outcome.state.virtual = before.virtual
  /-- A control step or the end of a program stops between two of the pieces it emits. -/
  halfway : step.role = .compound → outcome.result.isOk = false →
    ∃ part, part <+: step.fragments before ∧
      outcome.state.virtual = before.virtual ++ (Fragment.allText before.options.annotate part).toUTF8
  /-- Only the text of the levels can be given up. -/
  discards : step.role = .discarding →
    outcome.state.stream = before.stream ∧ outcome.state.stack.levels = []
  /-- While levels are open, the stream waits. -/
  holds : before.stack.levels ≠ [] → outcome.state.stack.levels ≠ [] → outcome.state.stream = before.stream

theorem perform_conserves (sound : context.Sound) (step : Step) :
    step.Conserves context (step.perform context) := by
  by_cases discarding : step.role = .discarding
  · obtain ⟨stream, levels⟩ := perform_discarding context discarding
    exact ⟨by simp [discarding], by simp [discarding], by simp [discarding], by simp [discarding],
      fun _ => ⟨stream, levels⟩, fun _ still => absurd levels still⟩
  obtain ⟨answer, after, ok, rfl⟩ | ⟨error, after, failed, rfl⟩ := step.perform.yields_or_stops context
  · have grown := perform_yields sound discarding ⟨ok, rfl⟩
    have succeeded : ¬ (step.perform context).result.isOk = false := by rw [ok]; nofun
    refine ⟨?_, fun _ _ => grown.virtual_eq, fun _ failed => absurd failed succeeded,
      fun _ failed => absurd failed succeeded, fun discards => absurd discards discarding, grown.stream_eq⟩
    intro silent
    simpa [text_of_silent context silent] using grown.virtual_eq
  · obtain ⟨part, isPrefix, whole, grown⟩ := perform_stops sound discarding ⟨failed, rfl⟩
    have refused : ¬ (step.perform context).result.isOk = true := by rw [failed]; nofun
    -- Only a compound step has more than the empty part to leave behind.
    have unchanged (simple : step.role ≠ .compound) : (step.perform context).state.virtual = context.virtual := by
      simpa [whole simple] using grown.virtual_eq
    exact ⟨fun silent => unchanged (by simp [silent]), fun _ ok => absurd ok refused,
      fun emitting _ => unchanged (by simp [emitting]), fun _ _ => ⟨part, isPrefix, grown.virtual_eq⟩,
      fun discards => absurd discards discarding, grown.stream_eq⟩

end Step

/-! ## Sessions -/

/-- What a session leaves when its steps were performed, whether they succeeded or failed. -/
def Context.after (context : Context) : List Step → Context
  | [] => context
  | step :: rest => (step.perform context).state.after rest

theorem Context.after_append (context : Context) (steps more : List Step) :
    context.after (steps ++ more) = (context.after steps).after more := by
  induction steps generalizing context with
  | nil => rfl
  | cons step rest ih => exact ih _

theorem Context.Sound.after {context : Context} (sound : context.Sound) (steps : List Step) :
    (context.after steps).Sound := by
  induction steps generalizing context with
  | nil => exact sound
  | cons step rest ih => exact ih (step.perform_sound sound)

theorem session_getElem? (steps : List Step) (context : Context) (index : Nat) :
    (session steps context)[index]? =
      steps[index]?.map fun step => step.perform (context.after (steps.take index)) := by
  induction steps generalizing context index with
  | nil => rfl
  | cons step rest ih =>
    cases index with
    | zero => rfl
    | succ index => simpa [session, Context.after] using ih _ index

/-- In every session from a fresh context on a stream that never fails, each step keeps the text there was and adds
its own at the end, after whatever steps and failures came before it. -/
theorem session_conserves_text (options : Options) {stream : Stream} (reliable : stream.IsReliable)
    (steps : List Step) (index : Nat) {step : Step} {outcome : Outcome EmitError Context Answer}
    (performed : steps[index]? = some step)
    (comes : (session steps (.start options stream))[index]? = some outcome) :
    step.Conserves ((Context.start options stream).after (steps.take index)) outcome := by
  have fresh : (Context.start options stream).Sound := ⟨reliable.1, by simp [BufferStack.Uniform, Context.start]⟩
  rw [session_getElem?, performed] at comes
  cases comes
  exact step.perform_conserves (fresh.after (steps.take index))

/-- Where only one level may be open, a second branch cannot be: the jump over it stays, its label is missing. -/
theorem session_conserves_text_halfway :
    ∃ outcome, (session [.beginIf .t0, .beginElse] (.start { maxDepth := 1 } {}))[1]? = some outcome ∧
      outcome.result.isOk = false ∧
      Step.beginElse.Conserves ((Context.start { maxDepth := 1 } {}).after [.beginIf .t0]) outcome :=
  ⟨_, rfl, rfl, session_conserves_text { maxDepth := 1 } ⟨rfl, rfl⟩ [.beginIf .t0, .beginElse] 1 rfl rfl⟩

end MipsBackend
