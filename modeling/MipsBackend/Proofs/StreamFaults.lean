import MipsBackend.Proofs.Resemblance
import MipsBackend.Proofs.TextConservation

/-! # Replays on a stream that fails

Every byte that a replay writes is written by one part of it: the prolog, a request, or the end of the program. A
stream that takes only some bytes makes the replay fail in the part that writes the next one, wherever in that part
the byte is: in a plain emission, in the text of a level that is closed, or in the string data.

* `Script.Writes`: which part writes the byte at a position.
* `Script.program_agrees`: the program on any stream beside the program on a stream that takes everything.
* `Script.replay_on_failing_stream`: what a replay comes to, and what its stream holds.
-/

namespace MipsBackend

namespace Stream

/-- A stream that takes `size` bytes and then fails. -/
def taking (size : Nat) (fault : Fault) : Stream := { limit := some ⟨size, fault⟩ }

/-- A stream that takes everything and fails when it is flushed. -/
def unflushable (fault : Fault) : Stream := { flushFault := some fault }

theorem written_taking (size : Nat) (fault : Fault) : (taking size fault).written = ByteArray.empty := rfl

theorem room_taking (size : Nat) (fault : Fault) :
    ∀ bound ∈ (taking size fault).limit, (taking size fault).written.size ≤ bound.size :=
  fun bound _ => Nat.zero_le bound.size

end Stream

namespace Replay

/-- The beginning of a program, before its requests. -/
def opening : Action ReplayError Replay Unit := (onContext Emission.prolog).mapError (.emission 0 "prolog")

/-- The end of a program, after its requests. -/
def finishing (script : Script) : Action ReplayError Replay Unit :=
  (onContext (Emission.finish (StringLiterals.ofList script.strings).table)).mapError .finish

/-- The part of a replay that writes: prolog, requests and the end of the program. -/
def program (script : Script) : Action ReplayError Replay Unit := do
  opening
  applyAll 0 script.requests
  finishing script

/-- The part of a replay that comes after the program: the summary is completed and the stream is flushed. -/
def closing (script : Script) : Action ReplayError Replay Unit := do
  Action.update (conclude script.strings)
  let replay ← Action.read
  Action.report (.finished replay.summary)
  let _ ← (onContext Emission.release).mapError .finish

theorem run_eq (script : Script) : run script = program script >>= fun _ => closing script := by
  simp only [program, bind_assoc]
  rfl

section Program

variable {script : Script} {replay begun requested : Replay} {error : ReplayError}

theorem program_of_applied (opens : opening.Yields replay () begun)
    (applies : (applyAll 0 script.requests).Yields begun () requested) :
    (program script replay).result = (finishing script requested).result ∧
      (program script replay).state = (finishing script requested).state :=
  ⟨opens.bind_eq.1.trans applies.bind_eq.1, opens.bind_eq.2.trans applies.bind_eq.2⟩

theorem program_of_refused (opens : opening.Yields replay () begun)
    (refused : (applyAll 0 script.requests).Stops begun error requested) :
    (program script).Stops replay error requested :=
  ⟨opens.bind_eq.1.trans refused.bind_eq.1, opens.bind_eq.2.trans refused.bind_eq.2⟩

end Program

theorem state_closing (script : Script) (replay : Replay) :
    (closing script replay).state =
      { replay.conclude script.strings with
        context := { replay.context with stack := replay.context.stack.clear } } := by
  have state := Emission.state_release replay.context
  cases result : (Emission.release replay.context).result <;>
    simp [closing, onContext, Action.mapError, Action.focus, Bind.bind, Action.bind, Pure.pure, Action.pure, result,
      state, conclude]

theorem result_closing (script : Script) (replay : Replay) :
    (closing script replay).result = replay.context.stream.flush.mapError fun fault => .finish (.io fault) := by
  cases fault : replay.context.stream.flushFault <;>
    simp [closing, onContext, Action.mapError, Action.focus, Bind.bind, Action.bind, Pure.pure, Action.pure,
      Emission.release, Emission.onStack, Action.ofExcept, Stream.flush, conclude, fault]

/-- What a replay on a stream that takes everything starts from. -/
def fresh (options : Options) : Replay := Replay.start (Context.start options {})

/-- A part of a replay that writes to the stream. -/
inductive Stage
  | prolog
  | request (index : Nat) (request : Request)
  | ending

/-- How an error in a part of a replay is reported. -/
def Stage.error : Stage → EmitError → ReplayError
  | prolog => .emission 0 "prolog"
  | request index asked => .emission index asked.name
  | ending => .finish

end Replay

namespace Script

open Replay

/-- How many bytes the prolog and the first `count` requests write to a stream that takes everything. -/
def sent (script : Script) (options : Options) (count : Nat) : Nat :=
  (script.partway options count).context.stream.written.size

/-- The bytes that a replay writes to a stream that takes everything. -/
def fullText (script : Script) (options : Options) : ByteArray :=
  (script.replay options {}).state.context.stream.written

/-- The part of a replay that writes the byte with `position` bytes before it. -/
def Writes (script : Script) (options : Options) (position : Nat) : Stage → Prop
  | .prolog => position < script.sent options 0
  | .request index request =>
    script.requests[index]? = some request ∧
      script.sent options index ≤ position ∧ position < script.sent options (index + 1)
  | .ending => script.sent options script.requests.length ≤ position ∧ position < (script.fullText options).size

theorem sent_mono (script : Script) (options : Options) {count more : Nat} (fewer : count ≤ more) :
    script.sent options count ≤ script.sent options more := by
  obtain ⟨others, written⟩ := (resemblance {}).later_partway script options fewer
  rw [sent, sent, written, ByteArray.size_append]
  omega

/-- Each byte is written by one part of a replay only. -/
theorem Writes.unique {script : Script} {options : Options} {position : Nat} {stage other : Stage}
    (writes : script.Writes options position stage) (otherWrites : script.Writes options position other) :
    stage = other := by
  -- A part begins no earlier than any part before it ends.
  have ordered {count more : Nat} (fewer : count ≤ more) := script.sent_mono options fewer
  have known {index : Nat} {asked : Request} (present : script.requests[index]? = some asked) :
      index < script.requests.length := (List.getElem?_eq_some_iff.mp present).1
  cases stage with
  | prolog =>
    cases other with
    | prolog => rfl
    | request index asked =>
      have := ordered (Nat.zero_le index)
      simp only [Writes] at writes otherWrites
      omega
    | ending =>
      have := ordered (Nat.zero_le script.requests.length)
      simp only [Writes] at writes otherWrites
      omega
  | request index asked =>
    obtain ⟨present, sent, unsent⟩ := writes
    cases other with
    | prolog =>
      have := ordered (Nat.zero_le index)
      simp only [Writes] at otherWrites
      omega
    | request otherIndex otherAsked =>
      obtain ⟨otherPresent, otherSent, otherUnsent⟩ := otherWrites
      obtain before | rfl | after := Nat.lt_trichotomy index otherIndex
      · have := ordered (show index + 1 ≤ otherIndex from before)
        omega
      · cases present.symm.trans otherPresent
        rfl
      · have := ordered (show otherIndex + 1 ≤ index from after)
        omega
    | ending =>
      have := ordered (show index + 1 ≤ script.requests.length from known present)
      simp only [Writes] at otherWrites
      omega
  | ending =>
    cases other with
    | prolog =>
      have := ordered (Nat.zero_le script.requests.length)
      simp only [Writes] at writes otherWrites
      omega
    | request index asked =>
      have := ordered (show index + 1 ≤ script.requests.length from known otherWrites.1)
      simp only [Writes] at writes otherWrites
      omega
    | ending => rfl

/-! ## The program -/

section Program

variable {script : Script} {options : Options} {stream : Stream}

/-- On a stream that takes everything the prolog always succeeds. -/
theorem opening_yields (options : Options) : opening.Yields (fresh options) () (fresh options).begun :=
  prolog_of_unbuffered rfl rfl

theorem partway_length (script : Script) (options : Options) :
    script.partway options script.requests.length = (applyAll 0 script.requests (fresh options).begun).state := by
  rw [partway, List.take_length]
  rfl

theorem replay_of_yields {written : Replay}
    (yields : (program script).Yields (Replay.start (Context.start options stream)) () written) :
    (script.replay options stream).result = (closing script written).result ∧
      (script.replay options stream).state = (closing script written).state := by
  rw [replay, run_eq]
  exact yields.bind_eq

theorem replay_of_stops {written : Replay} {error : ReplayError}
    (stops : (program script).Stops (Replay.start (Context.start options stream)) error written) :
    (script.replay options stream).result = .error error ∧ (script.replay options stream).state = written := by
  rw [replay, run_eq]
  exact stops.bind_eq

/-- What the replay wrote stays as it is once the program is written. -/
theorem stream_replay (script : Script) (options : Options) (stream : Stream) :
    (script.replay options stream).state.context.stream =
      (program script (Replay.start (Context.start options stream))).state.context.stream := by
  obtain ⟨value, written, yields⟩ | ⟨error, written, stops⟩ :=
    (program script).yields_or_stops (Replay.start (Context.start options stream))
  · rw [(replay_of_yields yields).2, state_closing, yields.2]
  · rw [(replay_of_stops stops).2, stops.2]

theorem respects_opening (stream : Stream) :
    ((resemblance stream).onReplay.reworded (.emission 0 "prolog")).Respects opening :=
  ((resemblance stream).onContext ((resemblance stream).emitFragment .prolog)).mapError _

theorem respects_finishing (stream : Stream) (script : Script) :
    ((resemblance stream).onReplay.reworded .finish).Respects (finishing script) :=
  ((resemblance stream).onContext ((resemblance stream).finish _)).mapError _

/-- What a replay has written after some requests is the beginning of what it writes. -/
theorem fullText_eq (script : Script) (options : Options) {count : Nat} (within : count ≤ script.requests.length) :
    ∃ more, script.fullText options = (script.partway options count).context.stream.written ++ more := by
  have later := (resemblance {}).later_partway script options within
  rw [fullText, stream_replay, ← fresh]
  obtain ⟨value, requested, applies⟩ | ⟨error, requested, refused⟩ :=
    (applyAll 0 script.requests).yields_or_stops (fresh options).begun
  · rw [(program_of_applied (opening_yields options) applies).2]
    rw [partway_length, applies.2] at later
    exact (resemblance {}).later_trans later ((respects_finishing {} script).advances _)
  · rw [(program_of_refused (opening_yields options) refused).2]
    rw [partway_length, refused.2] at later
    exact later

/-- How the program of a script goes on `stream`, beside how it goes on a stream that takes everything. -/
inductive ProgramAgrees (script : Script) (options : Options) (stream : Stream) : Prop
  | alike
      (same : (program script (Replay.start (Context.start options stream))).result =
        (program script (fresh options)).result)
      (related : (resemblance stream).onReplay.Related
        (program script (Replay.start (Context.start options stream))).state (program script (fresh options)).state)
  | cutOff (stage : Stage) (fault : Fault)
      (writes : ∀ bound ∈ stream.limit, script.Writes options (bound.size - stream.written.size) stage)
      (stopped : (program script (Replay.start (Context.start options stream))).result =
        .error (stage.error (.io fault)))
      (cut : stream.CutOff fault (program script (Replay.start (Context.start options stream))).state.context.stream.written
        (script.fullText options))

/-- Once all requests went alike, only the end of the program can be cut off. -/
theorem programAgrees_of_requests {begun : Replay} (room : ∀ bound ∈ stream.limit, stream.written.size ≤ bound.size)
    (opens : opening.Yields (Replay.start (Context.start options stream)) () begun)
    (same : (applyAll 0 script.requests begun).result = (applyAll 0 script.requests (fresh options).begun).result)
    (related : (resemblance stream).onReplay.Related (applyAll 0 script.requests begun).state
      (applyAll 0 script.requests (fresh options).begun).state) : script.ProgramAgrees options stream := by
  have freshOpens := opening_yields options
  obtain ⟨value, requested, freshApplies⟩ | ⟨error, requested, freshRefused⟩ :=
    (applyAll 0 script.requests).yields_or_stops (fresh options).begun
  · have applies : (applyAll 0 script.requests).Yields begun () _ := ⟨same.trans freshApplies.1, rfl⟩
    obtain ⟨result, state⟩ := program_of_applied opens applies
    obtain ⟨freshResult, freshState⟩ := program_of_applied freshOpens freshApplies
    rw [freshApplies.2] at related
    cases (respects_finishing stream script).agrees related with
    | excused _ never => exact never.elim fun _ never => never.2.elim
    | alike same related =>
      refine .alike (result.trans (same.trans freshResult.symm)) ?_
      rwa [state, freshState]
    | lapsed stopped lapse =>
      obtain ⟨_, rfl, fault, rfl, cut⟩ := lapse
      have full : (finishing script requested).state.context.stream.written = script.fullText options := by
        rw [fullText, stream_replay, ← fresh, freshState]
      rw [full] at cut
      refine .cutOff .ending fault ?_ (result.trans stopped) (state ▸ cut)
      intro bound limited
      refine ⟨?_, cut.size_lt limited (room bound limited)⟩
      rw [sent, partway_length, freshApplies.2]
      exact related.2.2.size_le limited
  -- A request that fails on its own ends both programs.
  · have refused : (applyAll 0 script.requests).Stops begun _ _ := ⟨same.trans freshRefused.1, rfl⟩
    have stops := program_of_refused opens refused
    have freshStops := program_of_refused freshOpens freshRefused
    refine .alike (stops.1.trans freshStops.1.symm) ?_
    rw [stops.2, freshStops.2]
    rwa [freshRefused.2] at related

/-- The program goes on as it would, until the limit cuts it off at the byte that does not fit. -/
theorem program_agrees (script : Script) (options : Options) {stream : Stream}
    (room : ∀ bound ∈ stream.limit, stream.written.size ≤ bound.size) : script.ProgramAgrees options stream := by
  have starts : (resemblance stream).onReplay.Related (Replay.start (Context.start options stream))
      (fresh options) :=
    ⟨rfl, rfl, Context.resembles_start options room⟩
  have freshOpens := opening_yields options
  cases (respects_opening stream).agrees starts with
  | excused _ never => exact never.elim fun _ never => never.2.elim
  | lapsed stopped lapse =>
    obtain ⟨_, rfl, fault, rfl, cut⟩ := lapse
    have stops : opening.Stops (Replay.start (Context.start options stream)) _ _ := ⟨stopped, rfl⟩
    -- What is cut off is part of the prolog, with which the whole text begins.
    have reached : stream.CutOff fault _ (script.partway options 0).context.stream.written := freshOpens.2 ▸ cut
    obtain ⟨more, full⟩ := script.fullText_eq options (Nat.zero_le _)
    refine .cutOff .prolog fault ?_ stops.bind_eq.1 ?_
    · intro bound limited
      exact reached.size_lt limited (room bound limited)
    · rw [full, program, stops.bind_eq.2]
      exact reached.more more
  | alike same related =>
    have opens : opening.Yields (Replay.start (Context.start options stream)) () _ :=
      ⟨same.trans freshOpens.1, rfl⟩
    rw [freshOpens.2] at related
    have requests : (resemblance stream).AgreesOn 0 script.requests _ _ := (resemblance stream).applyAll_agrees related
    cases requests with
    | excused _ never => exact never.elim
    | alike same related => exact programAgrees_of_requests room opens same related
    | lapsed position request cause present relatedBefore stopped lapse =>
      obtain ⟨fault, rfl, cut⟩ := lapse
      have refused : (applyAll 0 script.requests).Stops _ _ _ := ⟨stopped, rfl⟩
      have stops := program_of_refused opens refused
      have within : position + 1 ≤ script.requests.length := (List.getElem?_eq_some_iff.mp present).1
      obtain ⟨more, full⟩ := script.fullText_eq options within
      refine .cutOff (.request position request) fault ?_ ?_ ?_
      -- All that the earlier requests wrote fits, and not all that this one would have written.
      · intro bound limited
        exact ⟨present, relatedBefore.2.2.size_le limited, cut.size_lt limited (room bound limited)⟩
      · rw [stops.1, Nat.zero_add]
        rfl
      · rw [full, stops.2]
        exact cut.more more

end Program

/-! ## The whole replay -/

section Whole

variable {script : Script} {options : Options} {stream : Stream}

/-- Where the programs go alike, only flushing can make a difference. -/
theorem replay_of_alike
    (same : (program script (Replay.start (Context.start options stream))).result =
      (program script (fresh options)).result)
    (related : (resemblance stream).onReplay.Related
      (program script (Replay.start (Context.start options stream))).state (program script (fresh options)).state) :
    (script.replay options stream).result =
        ((script.replay options {}).result >>= fun _ => stream.flush.mapError fun fault => .finish (.io fault)) ∧
      (script.replay options stream).state.context.stream.written = stream.written ++ script.fullText options ∧
      (script.replay options stream).state.summary = (script.replay options {}).state.summary := by
  have resembles := related.2.2
  have written : (script.replay options stream).state.context.stream.written =
      stream.written ++ script.fullText options := by
    rw [stream_replay, resembles.stream_eq, fullText, stream_replay]
    rfl
  obtain ⟨value, done, freshYields⟩ | ⟨error, done, freshStops⟩ := (program script).yields_or_stops (fresh options)
  · have yields : (program script).Yields (Replay.start (Context.start options stream)) () _ :=
      ⟨same.trans freshYields.1, rfl⟩
    obtain ⟨result, state⟩ := replay_of_yields yields
    obtain ⟨freshResult, freshState⟩ :=
      replay_of_yields (show (program script).Yields (Replay.start (Context.start options {})) () done from freshYields)
    rw [freshYields.2] at related resembles
    have freshFlushes : done.context.stream.flush = .ok () := by rw [Stream.flush, resembles.reliable.2]
    refine ⟨?_, written, ?_⟩
    · rw [result, freshResult, result_closing, result_closing, resembles.stream_eq, freshFlushes]
      rfl
    · rw [state, freshState, state_closing, state_closing]
      simp only [conclude, related.2.1, resembles.labels_eq]
  · have stops : (program script).Stops (Replay.start (Context.start options stream)) error _ :=
      ⟨same.trans freshStops.1, rfl⟩
    obtain ⟨result, state⟩ := replay_of_stops stops
    obtain ⟨freshResult, freshState⟩ :=
      replay_of_stops (show (program script).Stops (Replay.start (Context.start options {})) error done from freshStops)
    rw [freshStops.2] at related
    refine ⟨?_, written, ?_⟩
    · rw [result, freshResult]
      rfl
    · rw [state, freshState, related.2.1]

/-- A stream that never fails makes no difference, whatever it holds already. -/
theorem replay_of_reliable (script : Script) (options : Options) (reliable : stream.IsReliable) :
    (script.replay options stream).result = (script.replay options {}).result ∧
      (script.replay options stream).state.summary = (script.replay options {}).state.summary := by
  have room : ∀ bound ∈ stream.limit, stream.written.size ≤ bound.size := by simp [reliable.1]
  have flushes : stream.flush = .ok () := by rw [Stream.flush, reliable.2]
  cases script.program_agrees options room with
  | alike same related =>
    obtain ⟨result, -, summary⟩ := replay_of_alike same related
    refine ⟨?_, summary⟩
    rw [result, flushes]
    exact bind_pure (script.replay options {}).result
  | cutOff stage found writes stopped cut =>
    obtain ⟨_, isLimit, -⟩ := cut
    rw [reliable.1] at isLimit
    cases isLimit

/-- Where everything fits, the limit makes no difference. -/
theorem replay_of_fits {size : Nat} (fault : Fault) (fits : (script.fullText options).size ≤ size) :
    (script.replay options (.taking size fault)).result = (script.replay options {}).result ∧
      (script.replay options (.taking size fault)).state.context.stream.written = script.fullText options ∧
      (script.replay options (.taking size fault)).state.summary = (script.replay options {}).state.summary := by
  cases script.program_agrees options (Stream.room_taking size fault) with
  | alike same related =>
    obtain ⟨result, written, summary⟩ := replay_of_alike same related
    refine ⟨?_, written.trans ByteArray.empty_append, summary⟩
    rw [result]
    exact bind_pure (script.replay options {}).result
  | cutOff stage found writes stopped cut =>
    have short : size < (script.fullText options).size :=
      cut.size_lt (show ⟨size, fault⟩ ∈ (Stream.taking size fault).limit from rfl) (Nat.zero_le size)
    exact absurd fits (Nat.not_le_of_lt short)

/-- Where not everything fits, the replay stops in the part that writes the first byte too many. -/
theorem replay_of_short {size : Nat} (fault : Fault) (short : size < (script.fullText options).size) :
    ∃ stage, script.Writes options size stage ∧
      (script.replay options (.taking size fault)).result = .error (stage.error (.io fault)) ∧
      (script.replay options (.taking size fault)).state.context.stream.written =
        (script.fullText options).extract 0 size := by
  cases script.program_agrees options (Stream.room_taking size fault) with
  | alike same related =>
    -- The stream would hold more than fits.
    have held : (script.replay options (.taking size fault)).state.context.stream.written.size ≤ size := by
      rw [stream_replay]
      exact related.2.2.room ⟨size, fault⟩ rfl
    rw [(replay_of_alike same related).2.1, Stream.written_taking, ByteArray.empty_append] at held
    exact absurd short (Nat.not_lt_of_le held)
  | cutOff stage found writes stopped cut =>
    obtain ⟨_, isLimit, -, written⟩ := cut
    obtain ⟨rfl, rfl⟩ : size = _ ∧ fault = found := by simpa [Stream.taking] using isLimit
    have stops : (program script).Stops (Replay.start (Context.start options (.taking size fault))) _ _ :=
      ⟨stopped, rfl⟩
    refine ⟨stage, writes ⟨size, fault⟩ rfl, (replay_of_stops stops).1, ?_⟩
    rw [stream_replay, written, Stream.written_taking, ByteArray.empty_append]

/-- A failing flush spoils a success and nothing else. -/
theorem replay_unflushable (script : Script) (options : Options) (fault : Fault) :
    (script.replay options (.unflushable fault)).result =
        ((script.replay options {}).result >>= fun _ => .error (.finish (.io fault))) ∧
      (script.replay options (.unflushable fault)).state.context.stream.written = script.fullText options := by
  have room : ∀ bound ∈ (Stream.unflushable fault).limit, (Stream.unflushable fault).written.size ≤ bound.size := nofun
  cases script.program_agrees options room with
  | alike same related =>
    obtain ⟨result, written, -⟩ := replay_of_alike same related
    exact ⟨result, written.trans ByteArray.empty_append⟩
  | cutOff stage found writes stopped cut =>
    obtain ⟨_, isLimit, -⟩ := cut
    cases isLimit

end Whole

end Script

end MipsBackend
