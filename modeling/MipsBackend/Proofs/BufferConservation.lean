import Mathlib.Order.Bounds.Basic
import MipsBackend.Proofs.ReliableStreams
import MipsBackend.Proofs.ResourceLimits
import MipsBackend.Proofs.StackInvariant

/-! # Conservation of buffers

A stack keeps its invariant whatever is done with it, and a context never loses a buffer: those in use and those kept
for later are as many as there were ever levels open at once.

* `depthsTold`: the depths that a stack passes through, as the events on the way tell them.
* `Leads`: the depths told lead from the depth before to the depth after without a gap.
* `BufferStack.Recounts`: what an emission makes of a stack, as the depths told show it.
* `Context.depthsReached`: all the depths in the lifetime of a context.
* `buffers_conserved`: the invariant of a stack, and the count of its buffers.
-/

namespace MipsBackend

/-! ## Depths told by events -/

/-- The depth that an event tells, which it does when a level was opened or dropped. -/
def Event.depth? : Event → Option Nat
  | pushed _ depth | popped _ depth => some depth
  | _ => none

/-- The depths that a stack passed through, as events tell them. -/
def depthsTold (events : List Event) : List Nat := events.filterMap Event.depth?

@[simp] theorem depthsTold_append (earlier later : List Event) :
    depthsTold (earlier ++ later) = depthsTold earlier ++ depthsTold later :=
  List.filterMap_append

theorem depthsTold_eq_nil {events : List Event} (quiet : ∀ event ∈ events, event.depth? = none) :
    depthsTold events = [] :=
  List.filterMap_eq_nil_iff.mpr quiet

theorem BufferStack.depthsTold_stateReport (stack : BufferStack) : depthsTold stack.stateReport = [] := by
  apply depthsTold_eq_nil
  intro event reported
  simp only [stateReport, List.mem_cons, List.mem_map] at reported
  obtain rfl | ⟨entry, -, rfl⟩ := reported <;> rfl

theorem RegisterPool.depthsTold_stateReport (pool : RegisterPool) : depthsTold pool.stateReport = [] := by
  apply depthsTold_eq_nil
  intro event reported
  obtain ⟨reg, -, rfl⟩ := List.mem_map.mp reported
  rfl

/-- Whether a step makes a single change to a stack. A merge makes several, and clearing drops levels in silence. -/
def StackStep.isSingle : StackStep → Bool
  | merge _ | clear => false
  | _ => true

/-- A single change to the depth is told, and nothing else is told as one. -/
theorem StackStep.told_of_isSingle {step : StackStep} (single : step.isSingle = true) (stack : BufferStack) :
    depthsTold (step.perform stack).events =
      if (step.perform stack).state.depth = stack.depth then [] else [(step.perform stack).state.depth] := by
  cases step with
  | push construct =>
    by_cases full : stack.maxDepth ≤ stack.depth
    · simp [perform, BufferStack.push, full, depthsTold]
    · simp only [perform, BufferStack.push, if_neg full]
      simp [depthsTold, Event.depth?, BufferStack.depth]
  | pop =>
    cases levels : stack.levels <;>
      simp [perform, BufferStack.pop, levels, depthsTold, Event.depth?, BufferStack.depth]
  | append text =>
    cases levels : stack.levels with
    | nil => simp [perform, BufferStack.append, levels, depthsTold]
    | cons level rest =>
      cases fits : level.append text <;>
        simp [perform, BufferStack.append, levels, fits, depthsTold, BufferStack.depth]
  | takeText =>
    cases levels : stack.levels <;> simp [perform, BufferStack.takeText, levels, depthsTold, BufferStack.depth]
  | setConstruct construct =>
    cases levels : stack.levels <;> simp [perform, BufferStack.setConstruct, levels, depthsTold, BufferStack.depth]
  | recycle buffer => simp [perform, BufferStack.recycle, depthsTold, BufferStack.depth]
  | merge count | clear => cases single

/-- The depths lead from `first` to `last`, each by a move from the one before it. -/
def Leads (Move : Nat → Nat → Prop) : (first : Nat) → List Nat → (last : Nat) → Prop
  | first, [], last => last = first
  | first, next :: rest, last => Move first next ∧ Leads Move next rest last

/-- One level was opened or dropped, and the limit was kept. -/
def ByOne (limit first next : Nat) : Prop := (next = first + 1 ∨ next + 1 = first) ∧ next ≤ limit

/-- One level was dropped. -/
def Down (first next : Nat) : Prop := next + 1 = first

namespace Leads

variable {Move : Nat → Nat → Prop} {first middle last : Nat} {depths more : List Nat}

theorem append (leads : Leads Move first depths middle) (further : Leads Move middle more last) :
    Leads Move first (depths ++ more) last := by
  induction depths generalizing first with
  | nil =>
    cases leads
    exact further
  | cons next rest ih => exact ⟨leads.1, ih leads.2⟩

theorem le_of_down (leads : Leads Down first depths last) : ∀ depth ∈ depths, depth ≤ first := by
  induction depths generalizing first with
  | nil => simp
  | cons next rest ih =>
    obtain ⟨down, leads⟩ := leads
    unfold Down at down
    intro depth told
    cases told with
    | head => omega
    | tail _ told =>
      have lower := ih leads depth told
      omega

theorem byOne_of_down {limit : Nat} (leads : Leads Down first depths last) (within : first ≤ limit) :
    Leads (ByOne limit) first depths last := by
  induction depths generalizing first with
  | nil => exact leads
  | cons next rest ih =>
    obtain ⟨down, leads⟩ := leads
    unfold Down at down
    exact ⟨⟨.inr down, by omega⟩, ih leads (by omega)⟩

theorem le_of_byOne {limit : Nat} (leads : Leads (ByOne limit) first depths last) :
    ∀ depth ∈ depths, depth ≤ limit := by
  induction depths generalizing first with
  | nil => simp
  | cons next rest ih => exact List.forall_mem_cons.mpr ⟨leads.1.2, ih leads.2⟩

end Leads

theorem foldl_max_of_le {values : List Nat} {bound : Nat} (below : ∀ value ∈ values, value ≤ bound) :
    values.foldl max bound = bound := by
  induction values with
  | nil => rfl
  | cons value rest ih =>
    rw [List.foldl_cons, Nat.max_eq_left (below value List.mem_cons_self)]
    exact ih fun other member => below other (List.mem_cons_of_mem _ member)

theorem isGreatest_foldl_max (first : Nat) (values : List Nat) :
    IsGreatest {value | value ∈ first :: values} (values.foldl max first) := by
  have greatest : (first :: values).max? = some (values.foldl max first) := List.max?_cons'
  exact List.max?_eq_some_iff.mp greatest

/-! ## Steps that open no level -/

/-- No level was opened on the way. -/
def FallsBy {σ : Type} (depth : σ → Nat) (before : σ) (_error? : Option EmitError) (events : List Event) (after : σ) :
    Prop :=
  Leads Down (depth before) (depthsTold events) (depth after)

theorem FallsBy.account {σ : Type} (depth : σ → Nat) : Action.Account (FallsBy depth) where
  still _ _ := rfl
  trans earlier later := by
    unfold FallsBy
    rw [depthsTold_append]
    exact earlier.append later

theorem FallsBy.followed {σ : Type} {depth : σ → Nat} {before after : σ} {error? : Option EmitError}
    {events more : List Event} (falls : FallsBy depth before error? events after) (quiet : depthsTold more = []) :
    FallsBy depth before error? (events ++ more) after := by
  rwa [FallsBy, depthsTold_append, quiet, List.append_nil]

theorem FallsBy.report {σ : Type} {depth : σ → Nat} {event : Event} (quiet : event.depth? = none) :
    (Action.report event : Action EmitError σ Unit).Meets (FallsBy depth) := by
  intro state
  simp [FallsBy, depthsTold, quiet, Leads]

namespace BufferStack

theorem pop_falls : pop.Meets (FallsBy depth) := by
  intro stack
  cases levels : stack.levels with
  | nil => simp [pop, levels, FallsBy, depthsTold, Leads]
  | cons level rest => simp [pop, levels, FallsBy, depthsTold, Leads, Event.depth?, Down, depth]

theorem top_falls : top.Meets (FallsBy depth) := by
  intro stack
  cases levels : stack.levels <;> simp [top, levels, FallsBy, depthsTold, Leads]

theorem append_falls (text : String) : (append text).Meets (FallsBy depth) := by
  intro stack
  cases levels : stack.levels with
  | nil => simp [append, levels, FallsBy, depthsTold, Leads]
  | cons level rest => cases fits : level.append text <;> simp [append, levels, fits, FallsBy, depthsTold, Leads, depth]

theorem recycle_falls (buffer : String) :
    (Action.update (recycle buffer) : Action EmitError BufferStack Unit).Meets (FallsBy depth) :=
  fun _ => rfl

theorem mergeInnermost_falls : mergeInnermost.Meets (FallsBy depth) := by
  have account := FallsBy.account depth
  apply account.bind pop_falls
  intro inner
  apply account.bind (append_falls inner.text)
  intro _
  apply account.bind top_falls
  intro outer
  exact account.bind (FallsBy.report rfl) fun _ => recycle_falls inner.text

theorem mergeSteps_falls (steps : Nat) : (mergeSteps steps).Meets (FallsBy depth) := by
  induction steps with
  | zero => exact (FallsBy.account depth).pure ()
  | succ steps ih => exact (FallsBy.account depth).bind mergeInnermost_falls fun _ => ih

theorem merge_falls (count : Nat) : (merge count).Meets (FallsBy depth) := by
  have account := FallsBy.account depth
  apply account.bind account.read
  intro stack
  split
  · exact account.fail _
  · split
    · exact account.fail _
    · apply account.bind (mergeSteps_falls (count - 1))
      intro _
      exact account.bind account.read fun merged => FallsBy.report rfl

end BufferStack

/-- How many levels are open in a context. -/
def Context.depth (context : Context) : Nat := context.stack.depth

namespace Emission

theorem onStack_falls {α : Type} {action : Action EmitError BufferStack α}
    (falls : action.Meets (FallsBy BufferStack.depth)) : (onStack action).Meets (FallsBy Context.depth) :=
  fun context => falls context.stack

theorem append_falls (text : String) : (append text).Meets (FallsBy Context.depth) := by
  have account := FallsBy.account Context.depth
  apply account.bind account.read
  intro context
  split
  · apply account.bind (onStack_falls (BufferStack.append_falls text))
    intro _
    exact account.bind (onStack_falls BufferStack.top_falls) fun level => FallsBy.report rfl
  · exact fun _ => rfl

theorem merge_falls (count : Nat) : (merge count).Meets (FallsBy Context.depth) :=
  (onStack_falls (BufferStack.merge_falls count)).reportingFailure fun falls =>
    falls.followed (BufferStack.depthsTold_stateReport _)

theorem close_falls : close.Meets (FallsBy Context.depth) := by
  have account := FallsBy.account Context.depth
  have check (stack : BufferStack) : ((Action.ofExcept (closable stack) : Emission Unit).reportingFailure
      fun context => context.stack.stateReport).Meets (FallsBy Context.depth) :=
    (account.ofExcept _).reportingFailure fun falls => falls.followed (BufferStack.depthsTold_stateReport _)
  apply account.bind account.read
  intro context
  apply account.bind (check context.stack)
  intro _
  apply account.bind (onStack_falls BufferStack.pop_falls)
  intro level
  apply account.bind (append_falls level.text)
  intro _
  apply account.bind account.read
  intro outside
  apply account.bind (FallsBy.report rfl)
  intro _
  exact account.bind (onStack_falls (BufferStack.recycle_falls level.text)) fun _ => account.pure _

end Emission

/-! ## Where buffers stay -/

namespace Emission

variable {context after : Context} {error : EmitError}

/-- A refused text leaves the levels as they are, whether a level or the stream refused it. -/
theorem append_stops_stack {text : String} (stops : (append text).Stops context error after) :
    after.stack = context.stack := by
  cases levels : context.stack.levels with
  | nil =>
    rw [Action.Stops, append_of_unbuffered levels] at stops
    rw [← stops.2]
    rfl
  | cons level rest =>
    by_cases room : text.utf8ByteSize ≤ level.remaining
    · have fits : context.Fits text := by simpa only [Context.Fits, levels] using room
      exact absurd stops (append_of_buffered (by simp [levels]) fits).not_stops
    · rw [← stops.2, (append_of_crowded levels (Nat.not_le.mp room)).2]

theorem peak_append (text : String) (context : Context) :
    ((append text) context).state.stack.peak = context.stack.peak := by
  obtain ⟨value, after, yields⟩ | ⟨error, after, stops⟩ := (append text).yields_or_stops context
  · rw [yields.2, (append_yields yields).2, Context.peak_appended]
  · rw [stops.2, append_stops_stack stops]

/-- Only the stream can refuse a text once no level is open. -/
theorem append_stops_of_unbuffered {text : String} (unbuffered : context.stack.levels = [])
    (stops : (append text).Stops context error after) : ∃ fault, error = .io fault := by
  rw [Action.Stops, append_of_unbuffered unbuffered] at stops
  exact write_stops stops

/-- A close stops before it begins, unless the stream fails. -/
theorem close_stops_unchanged_or_io (stops : close.Stops context error after) :
    after = context ∨ ∃ fault, error = .io fault := by
  simp only [close, Action.stops_bind_iff, Action.not_stops_read, Action.yields_read_iff, false_or,
    Action.stops_reportingFailure_iff, Action.yields_reportingFailure_iff, Action.stops_ofExcept_iff,
    Action.yields_ofExcept_iff, stops_onStack_iff, yields_onStack_iff, BufferStack.pop_stops_iff,
    BufferStack.pop_yields_iff, Action.not_stops_report, Action.not_stops_update, Action.not_stops_pure, false_and,
    and_false, exists_false, or_false] at stops
  obtain ⟨_, _, ⟨rfl, rfl⟩, ⟨-, rfl⟩ | ⟨_, _, ⟨check, rfl⟩, ⟨_, ⟨-, -, rfl⟩, rfl⟩ |
    ⟨level, popped, ⟨_, ⟨rest, levels, rfl⟩, rfl⟩, stops⟩⟩⟩ := stops
  · exact .inl rfl
  · exact .inl rfl
  · cases rest with
    | nil => exact .inr (append_stops_of_unbuffered rfl stops)
    | cons parent others =>
      -- The check made sure that the level around it has room.
      have fits := (fits_popped_iff levels).mpr (closable_eq_ok_iff.mp check)
      exact absurd stops (append_of_buffered (by simp) fits).not_stops

/-- A merge moves buffers from levels to those kept for later. -/
theorem peak_merge (count : Nat) (uniform : context.stack.Uniform) :
    ((merge count) context).state.stack.peak = context.stack.peak := by
  obtain ⟨value, after, yields⟩ | ⟨error, after, stops⟩ := (merge count).yields_or_stops context
  · obtain ⟨-, -, -, -, rfl⟩ := merge_yields_iff.mp yields
    rw [yields.2, Context.peak_merged]
  · rw [stops.2, merge_stops_unchanged uniform stops]

/-- So does a close, unless the stream refuses the text in the buffer. -/
theorem peak_close (faultless : ∀ fault, (close context).error? ≠ some (.io fault)) :
    (close context).state.stack.peak = context.stack.peak := by
  obtain ⟨construct, after, yields⟩ | ⟨error, after, stops⟩ := close.yields_or_stops context
  · obtain ⟨-, -, rfl⟩ := close_yields yields
    rw [yields.2, Context.peak_closed]
  · obtain rfl | ⟨fault, rfl⟩ := close_stops_unchanged_or_io stops
    · rw [stops.2]
    · exact absurd (by rw [Outcome.error?, stops.1]) (faultless fault)

end Emission

theorem BufferStack.peak_clear (stack : BufferStack) : stack.clear.peak = stack.peak := by
  have recycled (gone : List Level) (left : BufferStack) :
      (gone.foldl (fun left level => left.recycle level.text) left).peak = gone.length + left.peak := by
    induction gone generalizing left with
    | nil => exact (Nat.zero_add _).symm
    | cons level rest ih =>
      rw [List.foldl_cons, ih]
      simp only [peak, recycle, List.length_cons]
      omega
  rw [clear, recycled]
  simp only [peak, List.length_nil]
  omega

/-! ## What a stack passes through -/

/-- What came of a stack, as the depths told on the way show it. -/
structure BufferStack.Recounts (before : BufferStack) (error? : Option EmitError) (depths : List Nat)
    (after : BufferStack) : Prop where
  regular : after.Regular
  maxDepth_eq : after.maxDepth = before.maxDepth
  leads : Leads (ByOne before.maxDepth) before.depth depths after.depth
  /-- A buffer is lost only where the stream refuses the text in it. -/
  peak_eq : (∀ fault, error? ≠ some (.io fault)) → after.peak = depths.foldl max before.peak

/-- What an emission does to a stack that is in order is told by its events. -/
def Context.Recounting (before : Context) (error? : Option EmitError) (events : List Event) (after : Context) : Prop :=
  before.stack.Regular → before.stack.Recounts error? (depthsTold events) after.stack

namespace Context.Recounting

theorem account : Action.Account Context.Recounting where
  still _ _ regular := ⟨regular, rfl, rfl, fun _ => rfl⟩
  trans {first second third error? earlier later} begins goesOn regular := by
    have recounted := begins regular
    have recountedOn := goesOn recounted.regular
    refine ⟨recountedOn.regular, recountedOn.maxDepth_eq.trans recounted.maxDepth_eq, ?_, ?_⟩
    · rw [depthsTold_append]
      have leads := recountedOn.leads
      rw [recounted.maxDepth_eq] at leads
      exact recounted.leads.append leads
    · intro faultless
      rw [depthsTold_append, List.foldl_append, recountedOn.peak_eq faultless, recounted.peak_eq (by simp)]

/-- A step that opens no level is told by its events if it loses no buffer. -/
theorem of_falls {α : Type} {emission : Emission α} (falls : emission.Meets (FallsBy Context.depth))
    (regular : emission.Advances fun before after => before.stack.Regular → after.stack.Regular)
    (bounds : emission.Preserves Context.bounds)
    (peak : ∀ context : Context, context.stack.Regular → (∀ fault, (emission context).error? ≠ some (.io fault)) →
      (emission context).state.stack.peak = context.stack.peak) : emission.Meets Context.Recounting := by
  intro context isRegular
  have leads : Leads Down _ _ _ := falls context
  have kept := bounds context
  simp only [Context.bounds, BufferStack.bounds, Prod.mk.injEq] at kept
  refine ⟨regular context isRegular, kept.2.1.1, leads.byOne_of_down isRegular.depth_le, ?_⟩
  intro faultless
  rw [peak context isRegular faultless]
  symm
  apply foldl_max_of_le
  intro depth told
  exact Nat.le_trans (leads.le_of_down depth told) context.stack.depth_le_peak

theorem followed {before after : Context} {error? : Option EmitError} {events more : List Event}
    (recounting : before.Recounting error? events after) (quiet : depthsTold more = []) :
    before.Recounting error? (events ++ more) after := by
  rwa [Recounting, depthsTold_append, quiet, List.append_nil]

/-- Registers and labels are handled without a change to the levels. -/
theorem of_aside {α : Type} {emission : Emission α} (stack : ∀ context, (emission context).state.stack = context.stack)
    (quiet : ∀ context, depthsTold (emission context).events = []) : emission.Meets Context.Recounting := by
  intro context regular
  rw [stack, quiet]
  exact ⟨regular, rfl, rfl, fun _ => rfl⟩

theorem alloc : Emission.alloc.Meets Context.Recounting := by
  have allocates : (Emission.onPool RegisterPool.allocate).Meets Context.Recounting := by
    apply of_aside fun _ => rfl
    intro context
    simp only [Emission.onPool, Action.focus, RegisterPool.allocate]
    split
    · rfl
    · split <;> rfl
  exact allocates.reportingFailure fun recounting => recounting.followed (RegisterPool.depthsTold_stateReport _)

theorem free (reg : Reg) : (Emission.free reg).Meets Context.Recounting := by
  apply of_aside fun _ => rfl
  intro context
  simp only [Emission.free, Emission.onPool, Action.focus, RegisterPool.free]
  split
  · rfl
  · split <;> rfl

theorem newLabel : Emission.newLabel.Meets Context.Recounting := of_aside (fun _ => rfl) fun _ => rfl

theorem push (construct : Construct) : (Emission.push construct).Meets Context.Recounting := by
  have pushes : (Emission.onStack (BufferStack.push construct)).Meets Context.Recounting := by
    intro context regular
    by_cases full : context.stack.maxDepth ≤ context.stack.depth
    · simpa [Emission.onStack, Action.focus, BufferStack.push, full] using account.still context _ regular
    · have opens : Emission.onStack (BufferStack.push construct) context =
          ⟨.ok (), context.opened construct, [.pushed construct.kind (context.stack.depth + 1)]⟩ := by
        simp only [Emission.onStack, Action.focus, BufferStack.push, if_neg full]
        rfl
      have room := Nat.lt_of_not_le full
      rw [opens]
      exact ⟨regular.pushed room construct, rfl, ⟨⟨.inl rfl, room⟩, rfl⟩, fun _ => context.peak_opened construct⟩
  exact pushes.reportingFailure fun recounting => recounting.followed (BufferStack.depthsTold_stateReport _)

/-- All text and all levels are told of. -/
theorem emissionAccount : EmissionAccount Context.Recounting where
  toAccount := account
  append text :=
    of_falls (Emission.append_falls text) (regular_progression.append text) (bounds_progression.append text)
      fun context _ _ => Emission.peak_append text context
  push := push
  merge count :=
    of_falls (Emission.merge_falls count) (regular_progression.merge count) (bounds_progression.merge count)
      fun _ regular _ => Emission.peak_merge count regular.uniform
  close :=
    of_falls Emission.close_falls regular_progression.close bounds_progression.close
      fun _ _ faultless => Emission.peak_close faultless
  literals _ := of_aside (fun _ => rfl) fun _ => rfl

end Context.Recounting

/-- The events of a step tell every depth that the stack passes through, unless the step gives up the levels. -/
theorem Step.perform_recounts {step : Step} (keeps : step.role ≠ .discarding) :
    step.perform.Meets Context.Recounting := by
  apply Context.Recounting.emissionAccount.perform
  · exact fun _ => Context.Recounting.alloc
  · exact fun reg _ => Context.Recounting.free reg
  · exact fun _ => Context.Recounting.newLabel
  · rintro (rfl | rfl) <;> exact absurd rfl keeps

theorem Step.perform_of_discarding {step : Step} (discards : step.role = .discarding) (context : Context) :
    depthsTold (step.perform context).events = [] ∧ (step.perform context).state.stack = context.stack.clear := by
  cases step with
  | reset => exact ⟨rfl, rfl⟩
  | release =>
    rw [perform, Action.events_map, Action.state_map, Emission.state_release]
    refine ⟨?_, rfl⟩
    cases fault : context.stream.flushFault <;>
      simp [Emission.release, Emission.onStack, Action.focus, Action.ofExcept, Bind.bind, Action.bind, Pure.pure,
        Action.pure, Stream.flush, fault, depthsTold]
  | _ => cases discards

/-! ## Lifetimes -/

/-- The depths of a context from now on: before each step, during it, and in the end. -/
def Context.depthsReached (context : Context) : List Step → List Nat
  | [] => [context.stack.depth]
  | step :: rest =>
    context.stack.depth :: (depthsTold (step.perform context).events ++ (step.perform context).state.depthsReached rest)

/-- Whether a session goes on without a failure of the stream. -/
def Faultless (outcomes : List (Outcome EmitError Context Answer)) : Prop :=
  ∀ outcome ∈ outcomes, ∀ fault, outcome.result ≠ .error (.io fault)

theorem faultless_of_reliable {context : Context} (reliable : context.stream.IsReliable) (steps : List Step) :
    Faultless (session steps context) := by
  induction steps generalizing context with
  | nil => exact fun _ member => absurd member List.not_mem_nil
  | cons step rest ih =>
    have confined := step.perform_confined
    have own : ∀ fault, (step.perform context).result ≠ .error (.io fault) :=
      fun fault failed => confined.error reliable failed
    exact List.forall_mem_cons.mpr ⟨own, ih (confined.state reliable)⟩

theorem Step.peak_perform {step : Step} {context : Context} (regular : context.stack.Regular)
    (faultless : ∀ fault, (step.perform context).result ≠ .error (.io fault)) :
    (step.perform context).state.stack.peak =
      (depthsTold (step.perform context).events).foldl max context.stack.peak := by
  by_cases discards : step.role = .discarding
  · obtain ⟨told, cleared⟩ := perform_of_discarding discards context
    rw [told, cleared, BufferStack.peak_clear]
    rfl
  · apply (perform_recounts discards context regular).peak_eq
    intro fault failed
    apply faultless fault
    cases result : (step.perform context).result with
    | ok answer => simp [Outcome.error?, result] at failed
    | error error => simpa [Outcome.error?, result] using failed

theorem Context.peak_after {context : Context} {steps : List Step} (regular : context.stack.Regular)
    (faultless : Faultless (session steps context)) :
    (context.after steps).stack.peak = (context.depthsReached steps).foldl max context.stack.peak := by
  have current (context : Context) : max context.stack.peak context.stack.depth = context.stack.peak :=
    Nat.max_eq_left context.stack.depth_le_peak
  induction steps generalizing context with
  | nil => exact (current context).symm
  | cons step rest ih =>
    obtain ⟨first, others⟩ := List.forall_mem_cons.mp faultless
    have kept : (step.perform context).state.stack.Regular :=
      regular_progression.perform (fun _ _ _ => id) (fun _ _ _ => id) context regular
    rw [depthsReached, List.foldl_cons, current, List.foldl_append, ← Step.peak_perform regular first]
    exact ih kept others

/-- What the events of a step tell of the depth: every change, unless the levels are given up. -/
structure Step.TellsDepths (step : Step) (before : Context) (outcome : Outcome EmitError Context Answer) : Prop where
  leads : step.role ≠ .discarding →
    Leads (ByOne before.stack.maxDepth) before.stack.depth (depthsTold outcome.events) outcome.state.stack.depth
  discards : step.role = .discarding → depthsTold outcome.events = [] ∧ outcome.state.stack.depth = 0

theorem Step.perform_tellsDepths {context : Context} (regular : context.stack.Regular) (step : Step) :
    step.TellsDepths context (step.perform context) where
  leads keeps := (perform_recounts keeps context regular).leads
  discards gone := by
    obtain ⟨told, cleared⟩ := perform_of_discarding gone context
    rw [cleared, BufferStack.depth, BufferStack.levels_clear]
    exact ⟨told, rfl⟩

/-! ## The invariant and the count -/

/-- What a stack promises about itself under its limits, and what operations on it rely on. -/
structure BufferStack.Upholds (maxDepth bufferCapacity : Nat) (stack : BufferStack) : Prop where
  depth_le : stack.depth ≤ maxDepth
  capacity_eq : ∀ level ∈ stack.levels, level.capacity = bufferCapacity
  fits : ∀ level ∈ stack.levels, level.size ≤ level.capacity
  emptied : ∀ buffer ∈ stack.spare, buffer = ""
  /-- A level that is opened holds nothing, even where its buffer was in use before. -/
  opens : ∀ construct after, (push construct).Yields stack () after →
    after.levels = ⟨construct, "", bufferCapacity⟩ :: stack.levels
  /-- What is left of a capacity is told exactly. -/
  remaining_exact : ∀ level ∈ stack.levels, level.remaining + level.size = level.capacity
  /-- So is the number of levels outside a merge that is not refused at once. -/
  outside_exact : ∀ count, (merge count).Stops stack (.invalidMerge count stack.depth) stack ∨
    stack.depth - count + count = stack.depth

theorem BufferStack.Regular.upholds {stack : BufferStack} {maxDepth bufferCapacity : Nat} (regular : stack.Regular)
    (bounds : stack.bounds = (maxDepth, bufferCapacity)) : stack.Upholds maxDepth bufferCapacity := by
  obtain ⟨rfl, rfl⟩ := Prod.mk.inj bounds
  refine ⟨regular.depth_le, regular.uniform, regular.fits, regular.emptied, ?_, ?_, ?_⟩
  · intro construct after yields
    obtain ⟨-, rfl⟩ := push_yields_iff.mp yields
    rfl
  · intro level isOpen
    exact Nat.sub_add_cancel (regular.fits level isOpen)
  · intro count
    by_cases deep : count ≤ stack.depth
    · exact .inr (Nat.sub_add_cancel deep)
    · exact .inl (merge_of_invalid (.inr (Nat.lt_of_not_le deep)))

/-- Whatever is done with a stack, it keeps its invariant, and also in the middle of a merge. In a session on a fresh
context whose stream does not fail, the levels that are open and the buffers kept for later are together as many as the
most levels that were ever open at once, resets included. No depth goes untold: a single change to a stack tells the
depth it leads to, and the depths told in a step lead from the depth before it to the depth after it. -/
theorem buffers_conserved :
    (∀ (maxDepth bufferCapacity : Nat) (stackSteps : List StackStep),
      let stack := (BufferStack.start maxDepth bufferCapacity).after stackSteps
      stack.Upholds maxDepth bufferCapacity ∧
        ∀ done, let merged := (BufferStack.mergeSteps done stack).state
          merged.Upholds maxDepth bufferCapacity ∧
            (BufferStack.pop merged).state.Upholds maxDepth bufferCapacity) ∧
    (∀ (step : StackStep) (stack : BufferStack), step.isSingle = true →
      depthsTold (step.perform stack).events =
        if (step.perform stack).state.depth = stack.depth then [] else [(step.perform stack).state.depth]) ∧
    ∀ (options : Options) (stream : Stream) (steps : List Step),
      let context := Context.start options stream
      (∀ earlier step later, steps = earlier ++ step :: later →
        step.TellsDepths (context.after earlier) (step.perform (context.after earlier))) ∧
      (Faultless (session steps context) →
        IsGreatest {depth | depth ∈ context.depthsReached steps}
          ((context.after steps).stack.depth + (context.after steps).stack.spare.length)) := by
  refine ⟨?_, fun step stack single => StackStep.told_of_isSingle single stack, ?_⟩
  · intro maxDepth bufferCapacity stackSteps stack
    have regular : stack.Regular := BufferStack.regular_after maxDepth bufferCapacity stackSteps
    have bounds : stack.bounds = (maxDepth, bufferCapacity) := BufferStack.bounds_after _ stackSteps
    refine ⟨regular.upholds bounds, ?_⟩
    intro done merged
    have mergedRegular : merged.Regular := BufferStack.regular_progression.mergeSteps done stack regular
    have mergedBounds : merged.bounds = (maxDepth, bufferCapacity) :=
      (BufferStack.bounds_progression.mergeSteps done stack).trans bounds
    have popped := BufferStack.regular_progression.pop merged mergedRegular
    exact ⟨mergedRegular.upholds mergedBounds, popped.upholds ((BufferStack.pop_preserves merged).trans mergedBounds)⟩
  · intro options stream steps context
    have attainable : context.Attainable options stream := .start
    refine ⟨?_, ?_⟩
    · intro earlier step later _
      exact step.perform_tellsDepths (attainable.after earlier).regular
    · intro faultless
      have peak : (context.after steps).stack.peak = (context.depthsReached steps).foldl max 0 :=
        Context.peak_after attainable.regular faultless
      -- No level is open at first, so the depths begin with zero.
      obtain ⟨others, reached⟩ : ∃ others, context.depthsReached steps = 0 :: others := by
        cases steps <;> exact ⟨_, rfl⟩
      have largest : others.foldl max 0 = (context.after steps).stack.peak := by
        rw [peak, reached]
        rfl
      have greatest := isGreatest_foldl_max 0 others
      rwa [← reached, largest] at greatest

/-- Three levels are open at once before the reset, and one after it. Two steps are refused. -/
def loopSteps : List Step :=
  [.beginWhile, .beginWhile, .beginElse, .beginWhile, .merge 2, .endWhile, .reset, .close, .beginWhile]

theorem buffers_conserved_loopSteps :
    (session loopSteps (.start {} {})).map (·.result.isOk) = [true, true, false, true, true, true, true, false, true] ∧
      ((Context.start {} {}).after loopSteps).stack.depth = 1 ∧
      IsGreatest {depth | depth ∈ (Context.start {} {}).depthsReached loopSteps} 3 := by
  have faultless : Faultless (session loopSteps (.start {} {})) := faultless_of_reliable ⟨rfl, rfl⟩ loopSteps
  exact ⟨by decide +kernel, by decide +kernel, (buffers_conserved.2.2 {} {} loopSteps).2 faultless⟩

end MipsBackend
