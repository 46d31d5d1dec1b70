import MipsBackend.Proofs.ControlEffects
import MipsBackend.Proofs.Literals
import MipsBackend.Script.Direct
import MipsBackend.Script.Replay

/-! # Whole replays

How a replay comes down to steps on its context. `Replay.run_yields` takes a successful replay apart;
`Replay.run_stops` and `Replay.run_ends` tell the result of a replay on a reliable stream from what its
requests came to.
-/

namespace MipsBackend.Replay

theorem yields_onContext_iff {α : Type} {emission : Emission α} {replay after : Replay} {value : α} :
    (onContext emission).Yields replay value after ↔
      ∃ context, emission.Yields replay.context value context ∧ { replay with context } = after :=
  Action.yields_focus_iff

theorem stops_onContext_iff {α : Type} {emission : Emission α} {replay after : Replay} {error : EmitError} :
    (onContext emission).Stops replay error after ↔
      ∃ context, emission.Stops replay.context error context ∧ { replay with context } = after :=
  Action.stops_focus_iff

theorem applyAll_cons_yields_iff {index : Nat} {request : Request} {rest : List Request} {replay after : Replay}
    {value : Unit} :
    (applyAll index (request :: rest)).Yields replay value after ↔
      ∃ middle, (apply index request).Yields replay () middle ∧
        (applyAll (index + 1) rest).Yields middle.tally value after := by
  simp only [applyAll, Action.yields_bind_iff, Action.yields_report_iff, Action.yields_update_iff]
  constructor
  · rintro ⟨_, _, rfl, _, middle, applies, _, _, rfl, others⟩
    exact ⟨middle, applies, others⟩
  · rintro ⟨middle, applies, others⟩
    exact ⟨(), replay, rfl, (), middle, applies, (), middle.tally, rfl, others⟩

theorem applyAll_cons_yields {index : Nat} {request : Request} {rest : List Request} {replay after : Replay}
    {value : Unit} (yields : (applyAll index (request :: rest)).Yields replay value after) :
    ∃ middle, (apply index request).Yields replay () middle ∧
      (applyAll (index + 1) rest).Yields middle.tally () after :=
  applyAll_cons_yields_iff.mp yields

theorem applyAll_cons_stops_iff {index : Nat} {request : Request} {rest : List Request} {replay after : Replay}
    {error : ReplayError} :
    (applyAll index (request :: rest)).Stops replay error after ↔
      (apply index request).Stops replay error after ∨
        ∃ middle, (apply index request).Yields replay () middle ∧
          (applyAll (index + 1) rest).Stops middle.tally error after := by
  simp only [applyAll, Action.stops_bind_iff, Action.yields_report_iff, Action.not_stops_report,
    Action.yields_update_iff, Action.not_stops_update, false_or]
  constructor
  · rintro ⟨_, _, rfl, refused | ⟨_, middle, applies, _, _, rfl, others⟩⟩
    · exact .inl refused
    · exact .inr ⟨middle, applies, others⟩
  · rintro (refused | ⟨middle, applies, others⟩)
    · exact ⟨(), replay, rfl, .inl refused⟩
    · exact ⟨(), replay, rfl, .inr ⟨(), middle, applies, (), middle.tally, rfl, others⟩⟩

/-- The replay after the prolog of its program. -/
def begun (replay : Replay) : Replay :=
  { replay with context := replay.context.appended (Fragment.prolog.text replay.context.options.annotate) }

/-- A successful run is a prolog, the requests, which leave no level open, and the end of the program. -/
theorem run_yields {script : Script} {replay after : Replay} {value : Unit}
    (yields : (run script).Yields replay value after) :
    ∃ requested, (applyAll 0 script.requests).Yields replay.begun () requested ∧
      requested.context.stack.levels = [] ∧
      after.context.stream =
        ((requested.context.appended (Fragment.epilog.text requested.context.options.annotate)).appended
          ((literalSection script.strings).text requested.context.options.annotate)).stream ∧
      after.summary = (requested.conclude script.strings).summary := by
  simp only [run, Action.yields_bind_iff, Action.yields_mapError_iff, yields_onContext_iff,
    Action.yields_update_iff, Action.yields_read_iff, Action.yields_report_iff, Action.yields_pure_iff] at yields
  obtain ⟨_, _, ⟨_, prolog, rfl⟩, _, requested, requests, _, _, ⟨_, finish, rfl⟩, _, _, rfl, _, _, ⟨rfl, rfl⟩,
    _, _, rfl, _, _, ⟨_, release, rfl⟩, _, rfl⟩ := yields
  obtain rfl := Emission.prolog_yields prolog
  obtain ⟨unbuffered, entries, found, rfl⟩ := Emission.finish_yields finish
  obtain rfl := Emission.release_yields release
  rw [StringLiterals.entries_ofList] at found
  cases found
  exact ⟨requested, requests, unbuffered, rfl, by simp [conclude]⟩

/-! ## Replays on a reliable stream -/

section Reliable

variable {script : Script} {replay requested : Replay}

theorem prolog_of_unbuffered (reliable : replay.context.stream.limit = none)
    (unbuffered : replay.context.stack.levels = []) :
    ((onContext Emission.prolog).mapError (ReplayError.emission 0 "prolog")).Yields replay () replay.begun := by
  refine Action.yields_mapError_iff.mpr (yields_onContext_iff.mpr ⟨_, ?_, rfl⟩)
  exact Emission.emitFragment_of_unbuffered .prolog reliable unbuffered

theorem run_stops {error : ReplayError} (replay : Replay) (reliable : replay.context.stream.limit = none)
    (unbuffered : replay.context.stack.levels = [])
    (stops : (applyAll 0 script.requests).Stops replay.begun error requested) :
    (run script replay).result = .error error := by
  have whole : (run script).Stops replay error requested := by
    refine Action.stops_bind_iff.mpr (.inr ⟨(), _, prolog_of_unbuffered reliable unbuffered, ?_⟩)
    exact Action.stops_bind_iff.mpr (.inl stops)
  exact whole.1

/-- Once all requests are done, only levels that are still open can keep a replay from its end. -/
theorem run_ends (replay : Replay) (reliable : replay.context.stream.limit = none)
    (unbuffered : replay.context.stack.levels = [])
    (yields : (applyAll 0 script.requests).Yields replay.begun () requested)
    (kept : requested.context.stream.IsReliable) :
    (run script replay).result =
      if requested.context.stack.levels = [] then .ok ()
      else .error (.finish (.unclosedLevels requested.context.stack.depth)) := by
  have begins := prolog_of_unbuffered reliable unbuffered
  split
  next closed =>
    have finishes := Emission.finish_of_unbuffered kept.1 closed (StringLiterals.entries_ofList script.strings)
    have faultless : ((requested.context.appended
        (Fragment.epilog.text requested.context.options.annotate)).appended
          ((literalSection script.strings).text requested.context.options.annotate)).stream.flushFault = none := by
      simpa [Context.appended, closed] using kept.2
    obtain ⟨size, last, releases⟩ := Emission.release_of_faultless faultless
    have whole : (run script).Yields replay () _ :=
      Action.yields_bind_iff.mpr ⟨(), _, begins,
        Action.yields_bind_iff.mpr ⟨(), _, yields,
        Action.yields_bind_iff.mpr ⟨(), _, Action.yields_mapError_iff.mpr (yields_onContext_iff.mpr ⟨_, finishes, rfl⟩),
        Action.yields_bind_iff.mpr ⟨(), _, Action.yields_update_iff.mpr rfl,
        Action.yields_bind_iff.mpr ⟨_, _, Action.yields_read_iff.mpr ⟨rfl, rfl⟩,
        Action.yields_bind_iff.mpr ⟨(), _, Action.yields_report_iff.mpr rfl,
        Action.yields_bind_iff.mpr ⟨size, _, Action.yields_mapError_iff.mpr (yields_onContext_iff.mpr ⟨_, releases, rfl⟩),
        Action.yields_pure_iff.mpr ⟨rfl, rfl⟩⟩⟩⟩⟩⟩⟩⟩
    exact whole.1
  next isOpen =>
    have whole : (run script).Stops replay (.finish (.unclosedLevels requested.context.stack.depth)) requested := by
      refine Action.stops_bind_iff.mpr (.inr ⟨(), _, begins, ?_⟩)
      refine Action.stops_bind_iff.mpr (.inr ⟨(), _, yields, ?_⟩)
      refine Action.stops_bind_iff.mpr (.inl (Action.stops_mapError_iff.mpr ⟨_, ?_, rfl⟩))
      exact stops_onContext_iff.mpr ⟨_, Emission.finish_of_buffered isOpen, rfl⟩
    exact whole.1

end Reliable

end MipsBackend.Replay
