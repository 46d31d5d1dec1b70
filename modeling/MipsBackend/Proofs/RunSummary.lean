import MipsBackend.Proofs.BufferConservation
import MipsBackend.Proofs.SlotRegisters
import MipsBackend.Proofs.SupplyIndependence

/-! # Exact summaries

The summary of a run is brought up to date between requests only. It is exact all the same: no request hides a depth or
a register from it.

* `Replay.applyAll_counts`: how many requests were applied, and how many labels they took.
* `Replay.Recounting`: the events of a replay tell every depth that its stack passes through.
* `Replay.slotCounts`: how many slots are bound, request by request.
* `Script.summary_exact`: each figure of a summary is what it is called.
-/

namespace MipsBackend

/-! ## Requests and labels -/

/-- The step that a task performs on its context. -/
def Task.asStep : Task → Step
  | bindSlot _ => .alloc
  | freeSlot _ reg => .free reg
  | bindLabel _ => .label
  | .step performed => performed

/-- A request takes one label if it asks for one, and two if it begins a construct. -/
theorem Names.labels_of_resolve {names : Names} {index : Nat} {request : Request} {task : Task}
    (resolves : names.resolve index request = .ok task) :
    task.asStep.isReset = false ∧ task.asStep.asksLabel = (request.kind == .label) ∧
      task.asStep.beginsConstruct = (request.kind == .beginIf || request.kind == .beginWhile) := by
  cases request with
  | alloc name =>
    simp only [Names.resolve] at resolves
    split at resolves <;> cases resolves
    exact ⟨rfl, rfl, rfl⟩
  | free name =>
    obtain ⟨reg, _, _, rfl⟩ := Names.freeTask_eq_ok_iff.mp resolves
    exact ⟨rfl, rfl, rfl⟩
  | _ =>
    simp only [Names.resolve, exceptBind_eq_ok_iff, Except.ok.injEq] at resolves
    grind [Task.asStep, Step.isReset, Step.asksLabel, Step.beginsConstruct, Request.kind]

namespace Replay

variable {index : Nat} {request : Request} {requests : List Request} {replay after : Replay} {value : Unit}

theorem perform_asStep {task : Task} (yields : (Replay.perform task).Yields replay value after) :
    ∃ answer, task.asStep.perform.Yields replay.context answer after.context := by
  cases task with
  | bindSlot name =>
    simp only [Replay.perform, Action.yields_bind_iff, yields_onContext_iff, Action.yields_update_iff] at yields
    obtain ⟨reg, _, ⟨context, allocates, rfl⟩, rfl⟩ := yields
    exact ⟨_, Action.yields_map_iff.mpr ⟨reg, allocates, rfl⟩⟩
  | freeSlot name reg =>
    simp only [Replay.perform, Action.yields_bind_iff, yields_onContext_iff, Action.yields_update_iff] at yields
    obtain ⟨_, _, ⟨context, frees, rfl⟩, rfl⟩ := yields
    exact ⟨_, Action.yields_map_iff.mpr ⟨(), frees, rfl⟩⟩
  | bindLabel name =>
    simp only [Replay.perform, Action.yields_bind_iff, yields_onContext_iff, Action.yields_update_iff] at yields
    obtain ⟨label, _, ⟨context, takes, rfl⟩, rfl⟩ := yields
    exact ⟨_, Action.yields_map_iff.mpr ⟨label, takes, rfl⟩⟩
  | step performed =>
    simp only [Replay.perform, Action.yields_bind_iff, yields_onContext_iff, Action.yields_pure_iff] at yields
    obtain ⟨answer, _, ⟨context, performs, rfl⟩, _, rfl⟩ := yields
    exact ⟨answer, performs⟩

theorem apply_issued (yields : (apply index request).Yields replay value after) :
    after.context.labels.issued =
      replay.context.labels.issued +
        ((if request.kind == .label then 1 else 0) +
          2 * if request.kind == .beginIf || request.kind == .beginWhile then 1 else 0) := by
  simp only [Replay.apply, Action.yields_bind_iff, Action.yields_read_iff, Action.yields_ofExcept_iff,
    Action.yields_mapError_iff] at yields
  obtain ⟨_, _, ⟨rfl, rfl⟩, task, _, ⟨resolves, rfl⟩, performs⟩ := yields
  obtain ⟨answer, steps⟩ := perform_asStep performs
  obtain ⟨goesOn, asks, begins⟩ := Names.labels_of_resolve resolves
  rw [← steps.2, Step.issued_perform, goesOn, asks, begins]
  rfl

theorem applyAll_counts (yields : (applyAll index requests).Yields replay value after) :
    after.summary.requests = replay.summary.requests + requests.length ∧
      after.context.labels.issued =
        replay.context.labels.issued +
          (requests.countP (·.kind == .label) +
            2 * requests.countP fun request => request.kind == .beginIf || request.kind == .beginWhile) := by
  induction requests generalizing index replay with
  | nil =>
    obtain ⟨-, rfl⟩ := Action.yields_pure_iff.mp yields
    exact ⟨rfl, rfl⟩
  | cons request rest ih =>
    obtain ⟨middle, applies, others⟩ := applyAll_cons_yields yields
    obtain ⟨counted, issued⟩ := ih others
    have summary := (apply_peak applies).2
    have own := apply_issued applies
    rw [counted, issued, List.length_cons, List.countP_cons, List.countP_cons]
    simp only [tally, summary, own]
    omega

/-! ## Depths -/

/-- What a part of a replay that succeeds does to the stack is told by its events. -/
def Recounting {ε : Type} (before : Replay) (error? : Option ε) (events : List Event) (after : Replay) : Prop :=
  error? = none → before.context.Recounting none events after.context

theorem recounting_account {ε : Type} : Action.Account (Recounting (ε := ε)) where
  still replay _ _ := Context.Recounting.account.still replay.context none
  trans begins goesOn ok := Context.Recounting.account.trans (begins rfl) (goesOn ok)

section

variable {ε ε' α : Type}

theorem recounting_mapError {action : Action ε Replay α} (meets : action.Meets Recounting) (reword : ε → ε') :
    (action.mapError reword).Meets Recounting := by
  intro replay ok
  apply meets replay
  cases result : (action replay).result with
  | ok value => simp [Outcome.error?, result]
  | error error => simp [Outcome.error?, Action.mapError, result] at ok

theorem recounting_onContext {emission : Emission α} (meets : emission.Meets Context.Recounting) :
    (onContext emission).Meets Recounting := by
  intro replay ok
  have told := meets replay.context
  have succeeded : (emission replay.context).error? = none := ok
  rwa [succeeded] at told

theorem recounting_update {f : Replay → Replay} (kept : ∀ replay, (f replay).context = replay.context) :
    (Action.update f : Action ε Replay Unit).Meets Recounting := by
  intro replay _
  rw [Action.update_apply, kept]
  exact Context.Recounting.account.still replay.context none

theorem recounting_report {event : Event} (quiet : event.depth? = none) :
    (Action.report event : Action ε Replay Unit).Meets Recounting := by
  intro replay _
  have follows := Context.Recounting.account.still replay.context none
  exact follows.followed (depthsTold_eq_nil (by simpa using quiet))

end

theorem perform_recounting {task : Task} (scripted : ∀ step, task = .step step → step.isScripted = true) :
    (Replay.perform task).Meets Recounting := by
  cases task with
  | bindSlot name =>
    apply recounting_account.bind (recounting_onContext Context.Recounting.alloc)
    exact fun reg => recounting_update fun _ => rfl
  | freeSlot name reg =>
    apply recounting_account.bind (recounting_onContext (Context.Recounting.free reg))
    exact fun _ => recounting_update fun _ => rfl
  | bindLabel name =>
    apply recounting_account.bind (recounting_onContext Context.Recounting.newLabel)
    exact fun label => recounting_update fun _ => rfl
  | step performed =>
    have keeps : performed.role ≠ .discarding := by
      have isScripted := scripted performed rfl
      cases performed <;> simp [Step.role, Step.isScripted] at isScripted ⊢
    apply recounting_account.bind (recounting_onContext (Step.perform_recounts keeps))
    exact fun _ => recounting_account.pure ()

theorem apply_recounting (index : Nat) (request : Request) : (apply index request).Meets Recounting := by
  intro replay
  cases resolves : replay.names.resolve index request with
  | error error =>
    intro ok
    simp [Replay.apply, Bind.bind, Action.bind, Action.ofExcept, Outcome.error?, resolves] at ok
  | ok task =>
    have same : apply index request replay = (perform task).mapError (.emission index request.name) replay := by
      simp [Replay.apply, Bind.bind, Action.bind, Action.ofExcept, resolves]
    rw [same]
    apply recounting_mapError
    apply perform_recounting
    rintro step rfl
    exact Names.resolve_step resolves

theorem applyAll_recounting (index : Nat) (requests : List Request) :
    (applyAll index requests).Meets Recounting := by
  induction requests generalizing index with
  | nil => exact recounting_account.pure ()
  | cons request rest ih =>
    apply recounting_account.bind (recounting_report rfl)
    intro _
    apply recounting_account.bind (apply_recounting index request)
    intro _
    exact recounting_account.bind (recounting_update fun _ => rfl) fun _ => ih (index + 1)

theorem program_recounting (script : Script) : (program script).Meets Recounting := by
  have emission := Context.Recounting.emissionAccount
  have opens : opening.Meets Recounting := recounting_mapError (recounting_onContext (emission.emitFragment _)) _
  have finishes : (finishing script).Meets Recounting :=
    recounting_mapError (recounting_onContext (emission.finish _)) _
  apply recounting_account.bind opens
  intro _
  exact recounting_account.bind (applyAll_recounting 0 script.requests) fun _ => finishes

theorem depthsTold_closing (script : Script) (replay : Replay) : depthsTold (closing script replay).events = [] := by
  cases fault : replay.context.stream.flushFault <;>
    simp [closing, onContext, Action.mapError, Action.focus, Bind.bind, Action.bind, Pure.pure, Action.pure,
      Emission.release, Emission.onStack, Action.ofExcept, Stream.flush, conclude, fault, depthsTold, Event.depth?]

/-! ## Slots -/

/-- How many slots are bound before each request and after the last. In between, a request binds or frees its slot at
one go. -/
def slotCounts : (index : Nat) → List Request → Replay → List Nat
  | _, [], replay => [replay.names.slots.length]
  | index, request :: rest, replay =>
    replay.names.slots.length :: slotCounts (index + 1) rest (apply index request replay).state.tally

theorem slotCounts_eq (index : Nat) (requests : List Request) (replay : Replay) :
    ∃ others, slotCounts index requests replay = replay.names.slots.length :: others := by
  cases requests <;> exact ⟨_, rfl⟩

theorem outstanding_of_holds (holds : replay.names.Holds replay.context.pool) :
    replay.context.pool.outstanding = replay.names.slots.length := by
  rw [RegisterPool.outstanding, ← holds.held.length_eq, List.length_map]

theorem holds_tally (holds : replay.names.Holds replay.context.pool)
    (yields : (apply index request).Yields replay value after) :
    after.tally.names.Holds after.tally.context.pool := by
  have changed := holds.change (apply_slotChange yields)
  exact changed

/-- Looking once after each request misses no slot. -/
theorem applyAll_live (holds : replay.names.Holds replay.context.pool)
    (told : replay.names.slots.length ≤ replay.summary.maxLiveRegisters)
    (yields : (applyAll index requests).Yields replay value after) :
    after.summary.maxLiveRegisters = (slotCounts index requests replay).foldl max replay.summary.maxLiveRegisters := by
  induction requests generalizing index replay with
  | nil =>
    obtain ⟨-, rfl⟩ := Action.yields_pure_iff.mp yields
    exact (Nat.max_eq_left told).symm
  | cons request rest ih =>
    obtain ⟨middle, applies, further⟩ := applyAll_cons_yields yields
    have kept := holds_tally holds applies
    have sampled : middle.tally.summary.maxLiveRegisters =
        max replay.summary.maxLiveRegisters middle.tally.names.slots.length := by
      rw [← outstanding_of_holds kept, ← (apply_peak applies).2]
      rfl
    have later := ih kept (by rw [sampled]; exact Nat.le_max_right _ _) further
    -- The sample is also the first of the counts that follow.
    obtain ⟨others, counts⟩ := slotCounts_eq (index + 1) rest middle.tally
    rw [later, sampled, slotCounts, applies.2, List.foldl_cons, Nat.max_eq_left told, counts, List.foldl_cons,
      List.foldl_cons, Nat.max_assoc, Nat.max_self]

theorem slotCounts_le (holds : replay.names.Holds replay.context.pool)
    (yields : (applyAll index requests).Yields replay value after) :
    ∀ count ∈ slotCounts index requests replay, count ≤ 18 := by
  have bounded {replay : Replay} (holds : replay.names.Holds replay.context.pool) : replay.names.slots.length ≤ 18 := by
    have counted := holds.counted
    omega
  induction requests generalizing index replay with
  | nil => simpa [slotCounts] using bounded holds
  | cons request rest ih =>
    obtain ⟨middle, applies, others⟩ := applyAll_cons_yields yields
    have kept := holds_tally holds applies
    rw [slotCounts, applies.2]
    exact List.forall_mem_cons.mpr ⟨bounded holds, ih kept others⟩

/-! ## Whole runs -/

theorem program_yields {script : Script} (yields : (program script).Yields replay value after) :
    ∃ requested exit data, opening.Yields replay () replay.begun ∧
      (applyAll 0 script.requests).Yields replay.begun () requested ∧ requested.context.stack.levels = [] ∧
      after = { requested with context := (requested.context.appended exit).appended data } := by
  simp only [program, opening, finishing, Action.yields_bind_iff, Action.yields_mapError_iff,
    yields_onContext_iff] at yields
  obtain ⟨_, _, ⟨_, begins, rfl⟩, _, requested, applies, _, finishes, rfl⟩ := yields
  obtain rfl := Emission.prolog_yields begins
  obtain ⟨unbuffered, entries, -, rfl⟩ := Emission.finish_yields finishes
  refine ⟨requested, _, _, ?_, applies, unbuffered, rfl⟩
  exact Action.yields_mapError_iff.mpr (yields_onContext_iff.mpr ⟨_, begins, rfl⟩)

end Replay

/-- How many slots a run of a script has bound before each request and after the last. -/
def Script.slotCounts (script : Script) (options : Options) (stream : Stream) : List Nat :=
  Replay.slotCounts 0 script.requests (Replay.opening (.start (Context.start options stream))).state

/-- What the figures of a summary are, for a run of a script with the events it reported. -/
structure Summary.Exact (summary : Summary) (script : Script) (options : Options) (stream : Stream)
    (events : List Event) : Prop where
  requests : summary.requests = script.requests.length
  labelsIssued : summary.labelsIssued =
    script.requests.countP (·.kind == .label) +
      2 * script.requests.countP fun request => request.kind == .beginIf || request.kind == .beginWhile
  stringLiterals : summary.stringLiterals = script.strings.length
  /-- The events tell the depth whenever a level is opened or dropped (`StackStep.told_of_isSingle`), so the depths told
  are all there were, from no level to none. -/
  depths : Leads (ByOne options.maxDepth) 0 (depthsTold events) 0
  maxDepth : IsGreatest {depth | depth ∈ 0 :: depthsTold events} summary.maxDepth
  maxDepth_le : summary.maxDepth ≤ options.maxDepth
  maxLiveRegisters : IsGreatest {count | count ∈ script.slotCounts options stream} summary.maxLiveRegisters
  maxLiveRegisters_le : summary.maxLiveRegisters ≤ 18

namespace Script

open Replay

variable {script : Script} {options : Options} {stream : Stream} {written : Replay}

/-- What comes after the program neither opens nor drops a level. -/
theorem program_of_replay (succeeds : (script.replay options stream).result = .ok ()) :
    ∃ written, (program script).Yields (.start (Context.start options stream)) () written ∧
      depthsTold (script.replay options stream).events =
        depthsTold (program script (.start (Context.start options stream))).events ∧
      (script.replay options stream).state.summary = (written.conclude script.strings).summary := by
  have runs : (run script).Yields (.start (Context.start options stream)) () _ := ⟨succeeds, rfl⟩
  rw [run_eq, Action.yields_bind_iff] at runs
  obtain ⟨_, written, programs, -⟩ := runs
  refine ⟨written, programs, ?_, ?_⟩
  · rw [replay, run_eq, Action.bind_eq_of_ok programs.1, depthsTold_append, depthsTold_closing, List.append_nil]
  · rw [replay, run_eq, Action.bind_eq_of_ok programs.1, programs.2, state_closing]

theorem program_depths (programs : (program script).Yields (.start (Context.start options stream)) () written) :
    let depths := depthsTold (program script (.start (Context.start options stream))).events
    Leads (ByOne options.maxDepth) 0 depths written.context.stack.depth ∧
      written.context.stack.peak = depths.foldl max 0 := by
  have ok : (program script (.start (Context.start options stream))).error? = none := by
    rw [Outcome.error?, programs.1]
  have recounted := program_recounting script _ ok (.start options.maxDepth options.bufferCapacity)
  rw [programs.2] at recounted
  exact ⟨recounted.leads, recounted.peak_eq (by simp)⟩

/-- For every run that succeeds, under whatever options and on whatever stream, the summary is exact. -/
theorem summary_exact (script : Script) (options : Options) (stream : Stream)
    (succeeds : (script.replay options stream).result = .ok ()) :
    (script.replay options stream).state.summary.Exact script options stream (script.replay options stream).events := by
  obtain ⟨written, programs, told, summary⟩ := program_of_replay succeeds
  obtain ⟨leads, peak⟩ := program_depths programs
  obtain ⟨requested, exit, data, opens, applies, unbuffered, rfl⟩ := program_yields programs
  rw [Context.peak_appended, Context.peak_appended, ← applyAll_peak rfl applies] at peak
  rw [Context.depth_appended, Context.depth_appended, BufferStack.depth, unbuffered, List.length_nil] at leads
  obtain ⟨counted, issued⟩ := applyAll_counts applies
  have greatest : IsGreatest {depth | depth ∈ 0 :: depthsTold (script.replay options stream).events}
      requested.summary.maxDepth := by
    rw [peak, told]
    exact isGreatest_foldl_max 0 _
  have most : IsGreatest {count | count ∈ script.slotCounts options stream} requested.summary.maxLiveRegisters := by
    obtain ⟨others, counts⟩ := slotCounts_eq 0 script.requests (Replay.start (Context.start options stream)).begun
    rw [applyAll_live Names.Holds.nothing (Nat.zero_le _) applies, Script.slotCounts, opens.2, counts]
    exact isGreatest_foldl_max 0 others
  rw [summary]
  refine ⟨?_, ?_, rfl, ?_, greatest, ?_, most, ?_⟩
  · simpa [conclude, begun, Replay.start] using counted
  · simpa [conclude, begun, Replay.start, Context.start] using issued
  · rwa [told]
  · obtain flat | deep := List.mem_cons.mp greatest.1
    · exact flat ▸ Nat.zero_le options.maxDepth
    · rw [told] at deep
      exact leads.le_of_byOne _ deep
  · apply slotCounts_le Names.Holds.nothing applies
    have bound := most.1
    rwa [Script.slotCounts, opens.2] at bound

/-- A conditional with two branches, and three slots that are never all bound. -/
theorem summary_exact_branch :
    (Demo.branch.replay {} {}).state.summary = ⟨16, 2, 2, 2, 2⟩ ∧
      depthsTold (Demo.branch.replay {} {}).events = [1, 2, 1, 0] ∧
      (Demo.branch.replay {} {}).state.summary.Exact Demo.branch {} {} (Demo.branch.replay {} {}).events :=
  ⟨by decide +kernel, by decide +kernel,
    summary_exact Demo.branch {} {} (eq_ok_of_isOk (by decide +kernel))⟩

end Script

end MipsBackend
