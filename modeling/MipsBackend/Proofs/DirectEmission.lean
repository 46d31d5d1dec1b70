import MipsBackend.Proofs.ReplayEffects
import MipsBackend.Script.Demo
import MipsBackend.Script.Direct

/-! # Deferred emission agrees with direct emission

A replay scatters text over the stream and a stack of levels and moves it around when levels are merged
and closed. Read as `Context.virtual`, the text only ever grows at its end, and what a request adds
there is what direct emission says it contributes.

* `Context.Tracks`: a context and a state of direct emission agree on registers, labels and open
  constructs.
* `Context.Tracks.step`: one step keeps them in agreement and adds the step's own operations.
* `Replay.Tracks.applyAll`: so does a run of requests.
-/

namespace MipsBackend

/-! ## Steps -/

/-- A context and a state of direct emission agree on all that direct emission keeps. -/
structure Context.Tracks (context : Context) (direct : Direct) : Prop where
  pool : context.pool = direct.pool
  labels : context.labels = direct.labels
  constructs : context.outline = direct.constructs

/-- The steps that the requests of a script come to. -/
def Step.isScripted : Step → Bool
  | .emit _ | .push _ | .merge _ | .close
  | .beginIf _ | .beginElse | .endIf | .beginWhile | .loopTest _ | .endWhile => true
  | _ => false

/-- `after` is `context` with the operations emitted, in agreement with `next`. -/
structure Context.Adds (context : Context) (operations : List Operation) (next : Direct)
    (after : Context) : Prop where
  tracks : after.Tracks next
  options : after.options = context.options
  virtual : after.virtual =
    context.virtual ++ (Operation.allText context.options.annotate operations).toUTF8

theorem Context.Tracks.appended {context : Context} {direct : Direct} (tracks : context.Tracks direct)
    (text : String) : (context.appended text).Tracks direct where
  pool := by simpa using tracks.pool
  labels := by simpa using tracks.labels
  constructs := by simpa using tracks.constructs

theorem Context.Tracks.refl {context : Context} {direct : Direct} (tracks : context.Tracks direct) :
    context.Adds [] direct context :=
  ⟨tracks, rfl, by simp⟩

namespace Context.Adds

variable {context after : Context} {operations : List Operation} {direct : Direct}

theorem numbered (adds : context.Adds operations direct after) :
    context.Adds operations { direct with labels := ⟨direct.labels.issued + 1⟩ } after.numbered where
  tracks := ⟨adds.tracks.pool, by simp [adds.tracks.labels], adds.tracks.constructs⟩
  options := adds.options
  virtual := adds.virtual

theorem emitted (adds : context.Adds operations direct after) (operation : Operation) :
    context.Adds (operations ++ [operation]) direct
      (after.appended (operation.text context.options.annotate)) where
  tracks := adds.tracks.appended _
  options := by simp [adds.options]
  virtual := by simp [adds.virtual, Operation.allText_append, ByteArray.append_assoc]

theorem opened (adds : context.Adds operations direct after) (construct : Construct) :
    context.Adds operations (direct.opening construct) (after.opened construct) where
  tracks := ⟨adds.tracks.pool, adds.tracks.labels, by simp [Direct.opening, adds.tracks.constructs]⟩
  options := adds.options
  virtual := by simp [adds.virtual]

theorem merged (adds : context.Adds operations direct after) {count : Nat} (valid : 2 ≤ count)
    (deep : count ≤ after.stack.depth) :
    context.Adds operations { direct with constructs := direct.constructs.drop (count - 1) }
      (after.merged count) where
  tracks := ⟨adds.tracks.pool, adds.tracks.labels, by
    rw [Context.outline_merged valid deep, adds.tracks.constructs]⟩
  options := adds.options
  virtual := by simp [adds.virtual]

theorem closed (adds : context.Adds operations direct after) (closable : after.Closable) :
    context.Adds operations { direct with constructs := direct.constructs.tail } after.closed where
  tracks := ⟨by simp [adds.tracks.pool], by simp [adds.tracks.labels], by
    rw [Context.outline_closed closable, adds.tracks.constructs]⟩
  options := by simp [adds.options]
  virtual := by simp [adds.virtual]

theorem trans {between : Context} {more : List Operation} {next : Direct}
    (first : context.Adds operations direct between) (second : between.Adds more next after) :
    context.Adds (operations ++ more) next after where
  tracks := second.tracks
  options := second.options.trans first.options
  virtual := by
    simp [second.virtual, first.options, first.virtual, Operation.allText_append, ByteArray.append_assoc]

end Context.Adds

namespace Context.Tracks

variable {context after : Context} {direct : Direct}

theorem depth_eq (tracks : context.Tracks direct) : context.stack.depth = direct.constructs.length := by
  rw [← tracks.constructs, Context.outline, List.length_map, BufferStack.depth]

/-- Direct emission takes the same step and adds the same operations. -/
def Follows (context : Context) (direct : Direct) (step : Step) (after : Context) : Prop :=
  ∃ operations next, direct.step step = some (operations, next) ∧ next.names = direct.names ∧
    context.Adds operations next after

theorem merge {count : Nat} {value : Unit} (tracks : context.Tracks direct)
    (yields : (Emission.merge count).Yields context value after) :
    Follows context direct (.merge count) after := by
  obtain ⟨valid, deep, _, _, rfl⟩ := Emission.merge_yields_iff.mp yields
  refine ⟨_, _, ?_, ?_, tracks.refl.merged valid deep⟩
  · rw [tracks.depth_eq] at deep
    simp only [Direct.step, Bool.or_eq_true, decide_eq_true_eq]
    rw [if_neg (by omega)]
  · rfl

theorem close {construct : Construct} (tracks : context.Tracks direct)
    (yields : Emission.close.Yields context construct after) : Follows context direct .close after := by
  obtain ⟨closable, head, rfl⟩ := Emission.close_yields yields
  refine ⟨_, _, ?_, ?_, tracks.refl.closed closable⟩
  · obtain ⟨rest, constructs⟩ := List.head?_eq_some_iff.mp (tracks.constructs ▸ head)
    simp [Direct.step, constructs]
  · rfl

theorem beginIf {cond : Reg} {value : Unit} (tracks : context.Tracks direct)
    (yields : (Emission.beginIf cond).Yields context value after) :
    Follows context direct (.beginIf cond) after := by
  rw [Emission.beginIf_yields yields, tracks.labels]
  exact ⟨_, _, rfl, rfl, (tracks.refl.numbered.numbered.emitted _).opened _⟩

theorem beginElse {value : Unit} (tracks : context.Tracks direct)
    (yields : Emission.beginElse.Yields context value after) : Follows context direct .beginElse after := by
  obtain ⟨elseLabel, endLabel, rest, outline, rfl⟩ := Emission.beginElse_yields yields
  rw [tracks.constructs] at outline
  refine ⟨_, _, ?_, ?_, ((tracks.refl.emitted _).opened _).emitted _⟩
  · simp [Direct.step, outline]
  · rfl

theorem endIf {value : Unit} (tracks : context.Tracks direct)
    (yields : Emission.endIf.Yields context value after) : Follows context direct .endIf after := by
  obtain ⟨elseLabel, endLabel, rest, outline, deep, closable, rfl⟩ |
    ⟨elseLabel, endLabel, rest, outline, closable, rfl⟩ := Emission.endIf_yields yields
  -- The else construct goes with the merge and the one below it with the close.
  · refine ⟨_, _, ?_, ?_, ((tracks.refl.merged (Nat.le_refl 2) deep).closed closable).emitted _⟩
    · rw [tracks.constructs] at outline
      rw [tracks.depth_eq, outline] at deep
      cases rest with
      | nil => simp at deep
      | cons conditional rest => simp [Direct.step, outline]
    · rfl
  · rw [tracks.constructs] at outline
    refine ⟨_, _, ?_, ?_, (tracks.refl.closed closable).emitted _⟩
    · simp [Direct.step, outline]
    · rfl

theorem beginWhile {value : Unit} (tracks : context.Tracks direct)
    (yields : Emission.beginWhile.Yields context value after) : Follows context direct .beginWhile after := by
  rw [Emission.beginWhile_yields yields, tracks.labels]
  exact ⟨_, _, rfl, rfl, (tracks.refl.numbered.numbered.opened _).emitted _⟩

theorem loopTest {cond : Reg} {value : Unit} (tracks : context.Tracks direct)
    (yields : (Emission.loopTest cond).Yields context value after) :
    Follows context direct (.loopTest cond) after := by
  obtain ⟨entryLabel, exitLabel, rest, outline, rfl⟩ := Emission.loopTest_yields yields
  rw [tracks.constructs] at outline
  exact ⟨_, _, by simp [Direct.step, outline], rfl, tracks.refl.emitted _⟩

theorem endWhile {value : Unit} (tracks : context.Tracks direct)
    (yields : Emission.endWhile.Yields context value after) : Follows context direct .endWhile after := by
  obtain ⟨entryLabel, exitLabel, rest, released, outline, rfl, closable, rfl⟩ :=
    Emission.endWhile_yields yields
  rw [tracks.constructs] at outline
  refine ⟨_, _, ?_, ?_, ((tracks.refl.emitted _).emitted _).closed closable⟩
  · simp [Direct.step, outline]
  · rfl

/-- One step keeps a context and direct emission in agreement. -/
theorem step {step : Step} {answer : Answer} (tracks : context.Tracks direct)
    (scripted : step.isScripted = true) (yields : step.perform.Yields context answer after) :
    Follows context direct step after := by
  cases step with
  | emit operation =>
    obtain ⟨_, emits, _⟩ := Action.yields_map_iff.mp yields
    obtain ⟨_, rfl⟩ := Emission.emit_yields emits
    exact ⟨_, _, rfl, rfl, tracks.refl.emitted operation⟩
  | push construct =>
    obtain ⟨_, pushes, _⟩ := Action.yields_map_iff.mp yields
    obtain ⟨_, rfl⟩ := Emission.push_yields_iff.mp pushes
    exact ⟨_, _, rfl, rfl, tracks.refl.opened construct⟩
  | merge count =>
    obtain ⟨_, yields, _⟩ := Action.yields_map_iff.mp yields
    exact tracks.merge yields
  | close =>
    obtain ⟨_, yields, _⟩ := Action.yields_map_iff.mp yields
    exact tracks.close yields
  | beginIf cond =>
    obtain ⟨_, yields, _⟩ := Action.yields_map_iff.mp yields
    exact tracks.beginIf yields
  | beginElse =>
    obtain ⟨_, yields, _⟩ := Action.yields_map_iff.mp yields
    exact tracks.beginElse yields
  | endIf =>
    obtain ⟨_, yields, _⟩ := Action.yields_map_iff.mp yields
    exact tracks.endIf yields
  | beginWhile =>
    obtain ⟨_, yields, _⟩ := Action.yields_map_iff.mp yields
    exact tracks.beginWhile yields
  | loopTest cond =>
    obtain ⟨_, yields, _⟩ := Action.yields_map_iff.mp yields
    exact tracks.loopTest yields
  | endWhile =>
    obtain ⟨_, yields, _⟩ := Action.yields_map_iff.mp yields
    exact tracks.endWhile yields
  | _ => cases scripted

end Context.Tracks

/-! ## The summary of a run

The figures of a run depend on what direct emission keeps, hence not on limits or annotation. -/

namespace Direct

/-- A summary after one more request that led to this state. -/
def tally (direct : Direct) (summary : Summary) : Summary :=
  { summary with
    requests := summary.requests + 1
    maxDepth := max summary.maxDepth direct.constructs.length
    maxLiveRegisters := max summary.maxLiveRegisters direct.pool.outstanding }

/-- A summary after requests, the first of them at position `index`. -/
def tallyAll (direct : Direct) (summary : Summary) : (index : Nat) → List Request → Summary
  | _, [] => summary
  | index, request :: rest =>
    match direct.apply index request with
    | none => summary
    | some (_, next) => next.tallyAll (next.tally summary) (index + 1) rest

end Direct

theorem Replay.tally_of_tracks {replay : Replay} {direct : Direct} (tracks : replay.context.Tracks direct) :
    replay.tally = { replay with summary := direct.tally replay.summary } := by
  simp only [Replay.tally, Direct.tally, tracks.depth_eq, tracks.pool]

/-! ## Requests -/

/-- A replay and a state of direct emission agree. -/
structure Replay.Tracks (replay : Replay) (direct : Direct) : Prop where
  names : replay.names = direct.names
  context : replay.context.Tracks direct

theorem Names.resolve_step {names : Names} {index : Nat} {request : Request} {step : Step}
    (resolves : names.resolve index request = .ok (.step step)) : step.isScripted = true := by
  cases request <;>
    simp only [Names.resolve, Names.freeTask, exceptBind_eq_ok_iff, Except.ok.injEq, Task.step.injEq] at resolves <;>
    grind [Step.isScripted]

namespace Replay

namespace Tracks

variable {replay after : Replay} {direct : Direct}

/-- Direct emission performs the same task and adds the same operations. -/
theorem perform {task : Task} {value : Unit} (tracks : replay.Tracks direct)
    (scripted : ∀ step, task = .step step → step.isScripted = true)
    (yields : (Replay.perform task).Yields replay value after) :
    ∃ operations next, direct.perform task = some (operations, next) ∧ after.names = next.names ∧
      replay.context.Adds operations next after.context ∧ after.summary = replay.summary := by
  obtain ⟨names, tracks⟩ := tracks
  cases task with
  | bindSlot name =>
    simp only [Replay.perform, Action.yields_bind_iff, yields_onContext_iff, Emission.alloc,
      Action.yields_reportingFailure_iff, Emission.yields_onPool_iff, Action.yields_update_iff] at yields
    obtain ⟨reg, _, ⟨_, ⟨pool, ⟨result, rfl⟩, rfl⟩, rfl⟩, rfl⟩ := yields
    -- Which register is handed out depends on the pool alone, and both have the same.
    rw [tracks.pool] at result ⊢
    let next :=
      { direct with pool := direct.pool.allocate.state, names := direct.names.bindSlot name reg }
    refine ⟨[], next, by simp only [Direct.perform, result, next], by simp only [names, next], ?_, rfl⟩
    exact ⟨⟨rfl, tracks.labels, tracks.constructs⟩, rfl, tracks.refl.virtual⟩
  | freeSlot name reg =>
    simp only [Replay.perform, Action.yields_bind_iff, yields_onContext_iff, Emission.free,
      Emission.yields_onPool_iff, Action.yields_update_iff] at yields
    obtain ⟨_, _, ⟨_, ⟨pool, ⟨result, rfl⟩, rfl⟩, rfl⟩, rfl⟩ := yields
    rw [tracks.pool] at result ⊢
    let next :=
      { direct with
        pool := (RegisterPool.free reg direct.pool).state, names := direct.names.unbindSlot name }
    refine ⟨[], next, by simp only [Direct.perform, result, next], by simp only [names, next], ?_, rfl⟩
    exact ⟨⟨rfl, tracks.labels, tracks.constructs⟩, rfl, tracks.refl.virtual⟩
  | bindLabel name =>
    simp only [Replay.perform, Action.yields_bind_iff, yields_onContext_iff, Emission.newLabel_yields_iff,
      Action.yields_update_iff] at yields
    obtain ⟨_, _, ⟨_, ⟨rfl, rfl⟩, rfl⟩, rfl⟩ := yields
    refine ⟨[], _, rfl, by rw [names, tracks.labels]; rfl, ?_, rfl⟩
    exact ⟨⟨tracks.pool, by simp [tracks.labels], tracks.constructs⟩, rfl,
      tracks.refl.virtual⟩
  | step step =>
    simp only [Replay.perform, Action.yields_bind_iff, yields_onContext_iff, Action.yields_pure_iff] at yields
    obtain ⟨_, _, ⟨_, yields, rfl⟩, _, rfl⟩ := yields
    obtain ⟨operations, next, steps, kept, adds⟩ := tracks.step (scripted step rfl) yields
    exact ⟨operations, next, steps, names.trans kept.symm, adds, rfl⟩

theorem apply {index : Nat} {request : Request} {value : Unit} (tracks : replay.Tracks direct)
    (yields : (Replay.apply index request).Yields replay value after) :
    ∃ operations next, direct.apply index request = some (operations, next) ∧ after.names = next.names ∧
      replay.context.Adds operations next after.context ∧ after.summary = replay.summary := by
  simp only [Replay.apply, Action.yields_bind_iff, Action.yields_read_iff, Action.yields_ofExcept_iff,
    Action.yields_mapError_iff] at yields
  obtain ⟨_, _, ⟨rfl, rfl⟩, task, _, ⟨resolves, rfl⟩, performs⟩ := yields
  have scripted : ∀ step, task = .step step → step.isScripted = true := by
    rintro step rfl
    exact Names.resolve_step resolves
  obtain ⟨operations, next, performed, rest⟩ := tracks.perform scripted performs
  refine ⟨operations, next, ?_, rest⟩
  rw [tracks.names] at resolves
  simp only [Direct.apply, resolves, performed]

/-- A run of requests adds the operations of all of them, in order. -/
theorem applyAll {index : Nat} {requests : List Request} {value : Unit} (tracks : replay.Tracks direct)
    (yields : (Replay.applyAll index requests).Yields replay value after) :
    ∃ operations next, direct.applyAll index requests = some (operations, next) ∧
      replay.context.Adds operations next after.context ∧
      after.summary = direct.tallyAll replay.summary index requests := by
  induction requests generalizing index replay direct with
  | nil =>
    obtain ⟨_, rfl⟩ := Action.yields_pure_iff.mp yields
    exact ⟨[], direct, rfl, tracks.context.refl, rfl⟩
  | cons request rest ih =>
    simp only [Replay.applyAll, Action.yields_bind_iff, Action.yields_report_iff, Action.yields_update_iff] at yields
    obtain ⟨_, _, rfl, _, middle, applies, _, _, rfl, others⟩ := yields
    obtain ⟨own, next, applied, names, adds, summary⟩ := tracks.apply applies
    -- Counting the request changes the summary only.
    have tracked : middle.tally.Tracks next := ⟨names, adds.tracks⟩
    obtain ⟨more, last, run, moreAdds, figures⟩ := ih tracked others
    refine ⟨own ++ more, last, ?_, adds.trans moreAdds, ?_⟩
    · simp [Direct.applyAll, applied, run]
    · rw [figures, Replay.tally_of_tracks adds.tracks, summary]
      simp [Direct.tallyAll, applied]

end Tracks

theorem tracks_start (options : Options) (stream : Stream) :
    (Replay.start (Context.start options stream)).Tracks {} :=
  ⟨rfl, rfl, rfl, rfl⟩

end Replay

/-! ## Whole scripts -/

theorem allText_programFragments (annotate : Bool) (operations : List Operation) (strings : List String) :
    Fragment.allText annotate (programFragments operations strings) =
      Fragment.prolog.text annotate ++ Operation.allText annotate operations ++
        Fragment.epilog.text annotate ++ (literalSection strings).text annotate := by
  rw [programFragments, List.cons_append, Fragment.allText_cons, Fragment.allText_append, Fragment.allText_cons,
    Fragment.allText_cons, ← Operation.allText]
  simp [Fragment.allText, Fragment.allEmitted, String.append_assoc]

theorem Context.virtual_of_unbuffered {context : Context} (unbuffered : context.stack.levels = []) :
    context.virtual = context.stream.written := by
  simp [Context.virtual, unbuffered, Level.joined]

/-- What a successful replay writes and counts, told by direct emission alone. -/
theorem Script.replay_written {script : Script} {options : Options} {stream : Stream}
    (succeeds : (script.replay options stream).result = .ok ()) :
    ∃ operations last, ({} : Direct).applyAll 0 script.requests = some (operations, last) ∧
      (script.replay options stream).state.context.stream.written =
        stream.written ++ (Fragment.allText options.annotate (programFragments operations script.strings)).toUTF8 ∧
      (script.replay options stream).state.summary =
        { ({} : Direct).tallyAll {} 0 script.requests with
          labelsIssued := last.labels.issued
          stringLiterals := script.strings.length } := by
  obtain ⟨requested, requests, unbuffered, written, summary⟩ := Replay.run_yields ⟨succeeds, rfl⟩
  have begins := Replay.tracks_start options stream
  have tracked : Replay.Tracks
      { Replay.start (Context.start options stream) with
        context := (Context.start options stream).appended (Fragment.prolog.text options.annotate) } {} :=
    ⟨begins.names, begins.context.appended _⟩
  obtain ⟨operations, last, run, adds, figures⟩ := tracked.applyAll requests
  have kept : requested.context.options = options := adds.options.trans (Context.options_appended _ _)
  have text : requested.context.stream.written =
      stream.written ++ (Fragment.prolog.text options.annotate).toUTF8 ++
        (Operation.allText options.annotate operations).toUTF8 := by
    -- No level is open at either end, so the virtual text is what the stream holds.
    rw [← Context.virtual_of_unbuffered unbuffered, adds.virtual, Context.virtual_appended,
      Context.virtual_of_unbuffered rfl, Context.options_appended]
    rfl
  refine ⟨operations, last, run, ?_, ?_⟩
  · simp [Script.replay, written, kept, Context.appended, unbuffered, text, allText_programFragments, ByteArray.append_assoc]
  · rw [Script.replay, summary, Replay.conclude, figures, adds.tracks.labels]
    rfl

/-- A successful replay writes the prolog, then what direct emission says each request contributes, in the
order of the requests, then the epilog and the string data. So limits decide only whether a replay
succeeds: wherever it does with the same annotation, output and figures are the same. -/
theorem Script.replay_emits_direct (script : Script) (options : Options) (stream : Stream)
    (succeeds : (script.replay options stream).result = .ok ()) :
    (∃ operations, script.operations? = some operations ∧
      (script.replay options stream).state.context.stream.written =
        stream.written ++
          (Fragment.allText options.annotate (programFragments operations script.strings)).toUTF8) ∧
    ∀ other : Options, other.annotate = options.annotate →
      (script.replay other stream).result = .ok () →
      (script.replay other stream).state.context.stream.written =
        (script.replay options stream).state.context.stream.written ∧
      (script.replay other stream).state.summary = (script.replay options stream).state.summary := by
  obtain ⟨operations, last, run, written, summary⟩ := Script.replay_written succeeds
  refine ⟨⟨operations, by simp [Script.operations?, run], written⟩, ?_⟩
  intro other sameStyle otherSucceeds
  obtain ⟨otherOperations, otherLast, otherRun, otherWritten, otherSummary⟩ :=
    Script.replay_written otherSucceeds
  rw [run] at otherRun
  cases otherRun
  exact ⟨by rw [otherWritten, written, sameStyle], by rw [otherSummary, summary]⟩

theorem Script.replay_emits_direct_branch :
    (Demo.branch.replay {} {}).result = .ok () ∧
      ∃ operations, Demo.branch.operations? = some operations ∧
        (Demo.branch.replay {} {}).state.context.stream.written =
          ByteArray.empty ++ (Fragment.allText false (programFragments operations Demo.branch.strings)).toUTF8 := by
  have succeeds : (Demo.branch.replay {} {}).result = .ok () := eq_ok_of_isOk (by decide +kernel)
  exact ⟨succeeds, (Script.replay_emits_direct Demo.branch {} {} succeeds).1⟩

end MipsBackend
