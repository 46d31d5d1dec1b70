import MipsBackend.Proofs.Nesting
import MipsBackend.Proofs.Reachability
import MipsBackend.Proofs.ReplayEffects

/-! # The control steps accept the grammar of blocks

A replay of structured requests reads their marks with a stack of levels as its memory. The levels represent
the open parts of the grammar: the first part of a conditional and a loop are one level, the second part is two.

* `Step.perform_cases`: one step advances the open parts, or is refused, or exceeds a limit.
* `Replay.applyAll_cases`: so does a run of requests, up to the first that is refused.
-/

namespace MipsBackend

/-! ## Levels that stand for open parts -/

namespace OpenPart

def kind : OpenPart → ConstructKind
  | first => .conditional
  | second => .elseBranch
  | loop => .loop

inductive Represents : List OpenPart → List Construct → Prop
  | nil : Represents [] []
  | first {parts : List OpenPart} {outline : List Construct} {elseLabel endLabel : Label} :
      Represents parts outline →
      Represents (first :: parts) (.conditional elseLabel endLabel false :: outline)
  | second {parts : List OpenPart} {outline : List Construct} {elseLabel endLabel lowerElse lowerEnd : Label} :
      Represents parts outline →
      Represents (second :: parts)
        (.conditional elseLabel endLabel true :: .conditional lowerElse lowerEnd false :: outline)
  | loop {parts : List OpenPart} {outline : List Construct} {entryLabel exitLabel : Label} :
      Represents parts outline → Represents (loop :: parts) (.loop entryLabel exitLabel :: outline)

theorem Represents.length_eq {parts : List OpenPart} {outline : List Construct}
    (represents : Represents parts outline) : outline.length = levels parts := by
  induction represents with
  | nil => rfl
  | first _ ih | second _ ih | loop _ ih => simp [levels, ih]

end OpenPart

/-- The kind of construct that a mark has to stand in. -/
def ControlMark.expected : ControlMark → ConstructKind
  | .loopTest | .endWhile => .loop
  | _ => .conditional

/-- Why a mark is refused where parts are open. -/
def ControlMark.refusal (mark : ControlMark) : List OpenPart → EmitError
  | [] => .emptyStack
  | part :: _ => .constructMismatch mark.expected part.kind

theorem OpenPart.Represents.refusal_eq {parts : List OpenPart} {outline : List Construct}
    (represents : Represents parts outline) (mark : ControlMark) :
    MipsBackend.refusal mark.expected outline = mark.refusal parts := by
  cases represents <;> rfl

/-! ## Steps -/

/-- The mark of a step that emits an operation or belongs to a control construct. -/
def Step.controlMark? : Step → Option ControlMark
  | .emit _ => some .plain
  | .beginIf _ => some .beginIf
  | .beginElse => some .beginElse
  | .endIf => some .endIf
  | .beginWhile => some .beginWhile
  | .loopTest _ => some .loopTest
  | .endWhile => some .endWhile
  | _ => none

/-- The mark may stand where the parts are open, and `after` represents what is open behind it. -/
def Context.Advances (context : Context) (parts : List OpenPart) (mark : ControlMark) (after : Context) : Prop :=
  ∃ next, OpenPart.advance parts mark = some next ∧ OpenPart.Represents next after.outline ∧
    after.pool = context.pool

/-- The error is about a limit, or about a mark that may not stand where the parts are open. -/
def EmitError.Excuses (error : EmitError) (parts : List OpenPart) (mark : ControlMark) : Prop :=
  error.isLimit = true ∨ OpenPart.advance parts mark = none ∧ error = mark.refusal parts

namespace OpenPart.Represents

variable {parts : List OpenPart} {context after : Context} {error : EmitError} {value : Unit}

theorem beginIf {cond : Reg} (represents : Represents parts context.outline)
    (yields : (Emission.beginIf cond).Yields context value after) :
    context.Advances parts .beginIf after := by
  obtain rfl := Emission.beginIf_yields yields
  exact ⟨_, rfl, by simpa using represents.first, by simp⟩

theorem beginElse (represents : Represents parts context.outline)
    (yields : Emission.beginElse.Yields context value after) : context.Advances parts .beginElse after := by
  obtain ⟨elseLabel, endLabel, rest, outline, rfl⟩ := Emission.beginElse_yields yields
  rw [outline] at represents
  cases represents with
  | first below => exact ⟨_, rfl, by simpa [outline] using below.second, by simp⟩

theorem endIf (represents : Represents parts context.outline)
    (yields : Emission.endIf.Yields context value after) : context.Advances parts .endIf after := by
  obtain ⟨elseLabel, endLabel, rest, outline, deep, closable, rfl⟩ |
    ⟨elseLabel, endLabel, rest, outline, closable, rfl⟩ := Emission.endIf_yields yields
  · -- Merging drops the level of the second part and closing that of the first.
    have remains : (context.merged 2).closed.outline = rest.tail := by
      rw [Context.outline_closed closable, Context.outline_merged (Nat.le_refl 2) deep, outline]
      rfl
    rw [outline] at represents
    cases represents with
    | second below => exact ⟨_, rfl, by simpa [remains] using below, by simp⟩
  · rw [outline] at represents
    cases represents with
    | first below =>
      exact ⟨_, rfl, by simpa [Context.outline_closed closable, outline] using below, by simp⟩

theorem beginWhile (represents : Represents parts context.outline)
    (yields : Emission.beginWhile.Yields context value after) : context.Advances parts .beginWhile after := by
  obtain rfl := Emission.beginWhile_yields yields
  exact ⟨_, rfl, by simpa using represents.loop, by simp⟩

theorem loopTest {cond : Reg} (represents : Represents parts context.outline)
    (yields : (Emission.loopTest cond).Yields context value after) :
    context.Advances parts .loopTest after := by
  obtain ⟨entryLabel, exitLabel, rest, outline, rfl⟩ := Emission.loopTest_yields yields
  rw [outline] at represents
  cases represents with
  | loop below => exact ⟨_, rfl, by simpa [outline] using below.loop, by simp⟩

theorem endWhile (represents : Represents parts context.outline)
    (yields : Emission.endWhile.Yields context value after) : context.Advances parts .endWhile after := by
  obtain ⟨entryLabel, exitLabel, rest, released, outline, rfl, closable, rfl⟩ :=
    Emission.endWhile_yields yields
  have remains := Context.outline_closed closable
  rw [Context.outline_appended, Context.outline_appended, outline] at remains
  rw [outline] at represents
  cases represents with
  | loop below => exact ⟨_, rfl, by simpa [remains] using below, by simp⟩

/-- A step that succeeds advances the open parts. -/
theorem advances {step : Step} {mark : ControlMark} {answer : Answer} (represents : Represents parts context.outline)
    (structured : step.controlMark? = some mark) (yields : step.perform.Yields context answer after) :
    context.Advances parts mark after := by
  cases step with
  | emit operation =>
    cases structured
    obtain ⟨_, emits, _⟩ := Action.yields_map_iff.mp yields
    obtain ⟨_, rfl⟩ := Emission.emit_yields emits
    exact ⟨parts, by cases parts <;> rfl, by simpa using represents, by simp⟩
  | beginIf cond =>
    cases structured
    obtain ⟨_, yields, _⟩ := Action.yields_map_iff.mp yields
    exact represents.beginIf yields
  | beginElse =>
    cases structured
    obtain ⟨_, yields, _⟩ := Action.yields_map_iff.mp yields
    exact represents.beginElse yields
  | endIf =>
    cases structured
    obtain ⟨_, yields, _⟩ := Action.yields_map_iff.mp yields
    exact represents.endIf yields
  | beginWhile =>
    cases structured
    obtain ⟨_, yields, _⟩ := Action.yields_map_iff.mp yields
    exact represents.beginWhile yields
  | loopTest cond =>
    cases structured
    obtain ⟨_, yields, _⟩ := Action.yields_map_iff.mp yields
    exact represents.loopTest yields
  | endWhile =>
    cases structured
    obtain ⟨_, yields, _⟩ := Action.yields_map_iff.mp yields
    exact represents.endWhile yields
  | _ => cases structured

/-- A step that fails exceeds a limit or may not stand where it stands. -/
theorem excuses {step : Step} {mark : ControlMark} (represents : Represents parts context.outline)
    (structured : step.controlMark? = some mark) (reliable : context.stream.limit = none)
    (stops : step.perform.Stops context error after) : error.Excuses parts mark := by
  -- What is refused is read off the innermost level, and that level tells the innermost part.
  have refused := represents.refusal_eq mark
  cases step with
  | emit operation =>
    cases structured
    exact .inl (Emission.emit_stops reliable (Action.stops_map_iff.mp stops))
  | beginIf cond =>
    cases structured
    exact .inl (Emission.beginIf_stops reliable (Action.stops_map_iff.mp stops))
  | beginWhile =>
    cases structured
    exact .inl (Emission.beginWhile_stops reliable (Action.stops_map_iff.mp stops))
  | beginElse =>
    cases structured
    have cause := Emission.beginElse_stops reliable (Action.stops_map_iff.mp stops)
    generalize context.outline = outline at represents refused cause
    cases represents with
    | nil => exact .inr ⟨rfl, refused ▸ cause⟩
    | first _ => exact .inl cause
    | second _ => exact .inr ⟨rfl, refused ▸ cause⟩
    | loop _ => exact .inr ⟨rfl, refused ▸ cause⟩
  | endIf =>
    cases structured
    have cause := Emission.endIf_stops reliable (Action.stops_map_iff.mp stops)
    generalize context.outline = outline at represents refused cause
    cases represents with
    | nil => exact .inr ⟨rfl, refused ▸ cause⟩
    | first _ => exact .inl cause
    | second _ => exact .inl (cause (by simp))
    | loop _ => exact .inr ⟨rfl, refused ▸ cause⟩
  | loopTest cond =>
    cases structured
    have cause := Emission.loopTest_stops reliable (Action.stops_map_iff.mp stops)
    generalize context.outline = outline at represents refused cause
    cases represents with
    | nil => exact .inr ⟨rfl, refused ▸ cause⟩
    | first _ => exact .inr ⟨rfl, refused ▸ cause⟩
    | second _ => exact .inr ⟨rfl, refused ▸ cause⟩
    | loop _ => exact .inl cause
  | endWhile =>
    cases structured
    have cause := Emission.endWhile_stops reliable (Action.stops_map_iff.mp stops)
    generalize context.outline = outline at represents refused cause
    cases represents with
    | nil => exact .inr ⟨rfl, refused ▸ cause⟩
    | first _ => exact .inr ⟨rfl, refused ▸ cause⟩
    | second _ => exact .inr ⟨rfl, refused ▸ cause⟩
    | loop _ => exact .inl cause
  | _ => cases structured

end OpenPart.Represents

/-! ## Requests whose names are known -/

/-- The names and the free registers after a task, if the task can have its register. -/
def Task.settle (names : Names) (pool : RegisterPool) : Task → Option (Names × RegisterPool)
  | .bindSlot name =>
    match (RegisterPool.allocate pool).result with
    | .ok reg => some (names.bindSlot name reg, (RegisterPool.allocate pool).state)
    | .error _ => none
  | .freeSlot name reg =>
    match (RegisterPool.free reg pool).result with
    | .ok () => some (names.unbindSlot name, (RegisterPool.free reg pool).state)
    | .error _ => none
  | .bindLabel _ | .step _ => some (names, pool)

/-- Whether requests that bind no labels find every name bound and every register they ask for. -/
def Names.resolvesAll (names : Names) (pool : RegisterPool) : (index : Nat) → List Request → Bool
  | _, [] => true
  | index, request :: rest =>
    match names.resolve index request with
    | .error _ => false
    | .ok task =>
      match task.settle names pool with
      | none => false
      | some (names, pool) => names.resolvesAll pool (index + 1) rest

theorem Names.resolvesAll_cons_iff {names : Names} {pool : RegisterPool} {index : Nat} {request : Request}
    {rest : List Request} :
    names.resolvesAll pool index (request :: rest) = true ↔
      ∃ task known left, names.resolve index request = .ok task ∧ task.settle names pool = some (known, left) ∧
        known.resolvesAll left (index + 1) rest = true := by
  rw [Names.resolvesAll]
  cases resolved : names.resolve index request with
  | error error => simp
  | ok task =>
    cases settled : task.settle names pool with
    | none => simp [settled]
    | some held =>
      obtain ⟨known, left⟩ := held
      simp only [settled]
      constructor
      · intro others
        exact ⟨task, known, left, rfl, settled, others⟩
      · rintro ⟨_, _, _, same, settles, others⟩
        cases same
        rw [settled] at settles
        cases settles
        exact others

theorem Names.resolve_controlMark? {names : Names} {index : Nat} {request : Request} {step : Step}
    {mark : ControlMark} (marked : request.controlMark? = some mark)
    (resolves : names.resolve index request = .ok (.step step)) : step.controlMark? = some mark := by
  cases request <;> cases marked <;>
    simp only [Names.resolve, Names.freeTask, exceptBind_eq_ok_iff, Except.ok.injEq, Task.step.injEq] at resolves <;>
    grind [Step.controlMark?]

theorem Names.resolve_plain {names : Names} {index : Nat} {request : Request} {task : Task} {mark : ControlMark}
    (marked : request.controlMark? = some mark) (resolves : names.resolve index request = .ok task)
    (other : ∀ step, task ≠ .step step) : mark = .plain ∧ ∀ name, task ≠ .bindLabel name := by
  cases request <;> cases marked <;>
    simp only [Names.resolve, Names.freeTask, exceptBind_eq_ok_iff, Except.ok.injEq] at resolves <;>
    grind

/-! ## Runs of requests -/

/-- A replay that has bound these names, has this pool left and stands inside these open parts. -/
structure Replay.Stands (replay : Replay) (names : Names) (pool : RegisterPool) (parts : List OpenPart) : Prop where
  names : replay.names = names
  pool : replay.context.pool = pool
  parts : OpenPart.Represents parts replay.context.outline
  reliable : replay.context.stream.IsReliable

theorem Step.isReliable_of_yields {step : Step} {context after : Context} {answer : Answer}
    (reliable : context.stream.IsReliable) (yields : step.perform.Yields context answer after) :
    after.stream.IsReliable := by
  have kept := step.perform_preserves context
  rw [yields.2] at kept
  simp only [Context.bounds, Prod.mk.injEq] at kept
  exact ⟨kept.2.2.1.trans reliable.1, kept.2.2.2.trans reliable.2⟩

namespace Replay.Stands

variable {replay : Replay} {names known : Names} {pool left : RegisterPool} {parts : List OpenPart} {task : Task}
  {mark : ControlMark}

/-- Tasks without a step only move registers, which `Task.settle` says is possible. -/
theorem settle (stands : replay.Stands names pool parts) (settles : task.settle names pool = some (known, left))
    (other : ∀ step, task ≠ .step step) (unlabelled : ∀ name, task ≠ .bindLabel name) :
    ∃ after, (Replay.perform task).Yields replay () after ∧ after.Stands known left parts := by
  obtain ⟨rfl, rfl, represents, reliable⟩ := stands
  cases task with
  | bindLabel name => exact absurd rfl (unlabelled name)
  | step step => exact absurd rfl (other step)
  | bindSlot name =>
    cases allocates : (RegisterPool.allocate replay.context.pool).result with
    | error error => simp [Task.settle, allocates] at settles
    | ok reg =>
      simp only [Task.settle, allocates, Option.some.injEq, Prod.mk.injEq] at settles
      obtain ⟨rfl, rfl⟩ := settles
      let after : Replay :=
        { replay with
          context := { replay.context with pool := (RegisterPool.allocate replay.context.pool).state }
          names := replay.names.bindSlot name reg }
      refine ⟨after, ?_, rfl, rfl, represents, reliable⟩
      refine Action.yields_bind_iff.mpr ⟨reg, _, Replay.yields_onContext_iff.mpr ⟨_, ?_, rfl⟩,
        Action.yields_update_iff.mpr rfl⟩
      exact Action.yields_reportingFailure_iff.mpr (Emission.yields_onPool_iff.mpr ⟨_, ⟨allocates, rfl⟩, rfl⟩)
  | freeSlot name reg =>
    cases frees : (RegisterPool.free reg replay.context.pool).result with
    | error error => simp [Task.settle, frees] at settles
    | ok value =>
      simp only [Task.settle, frees, Option.some.injEq, Prod.mk.injEq] at settles
      obtain ⟨rfl, rfl⟩ := settles
      let after : Replay :=
        { replay with
          context := { replay.context with pool := (RegisterPool.free reg replay.context.pool).state }
          names := replay.names.unbindSlot name }
      refine ⟨after, ?_, rfl, rfl, represents, reliable⟩
      exact Action.yields_bind_iff.mpr ⟨(), _, Replay.yields_onContext_iff.mpr
        ⟨_, Emission.yields_onPool_iff.mpr ⟨_, ⟨frees, rfl⟩, rfl⟩, rfl⟩, Action.yields_update_iff.mpr rfl⟩

theorem step {step : Step} (stands : replay.Stands names pool parts) (structured : step.controlMark? = some mark) :
    (∃ after next, (Replay.perform (.step step)).Yields replay () after ∧
      OpenPart.advance parts mark = some next ∧ after.Stands names pool next) ∨
    ∃ error after, (Replay.perform (.step step)).Stops replay error after ∧ error.Excuses parts mark := by
  obtain ⟨rfl, rfl, represents, reliable⟩ := stands
  obtain ⟨answer, context, yields⟩ | ⟨error, context, stops⟩ := step.perform.yields_or_stops replay.context
  · obtain ⟨next, advances, represented, pool⟩ := represents.advances structured yields
    refine .inl ⟨{ replay with context }, next, ?_, advances, rfl, pool, represented,
      step.isReliable_of_yields reliable yields⟩
    exact Action.yields_bind_iff.mpr ⟨answer, _, Replay.yields_onContext_iff.mpr ⟨_, yields, rfl⟩,
      Action.yields_pure_iff.mpr ⟨rfl, rfl⟩⟩
  · refine .inr ⟨error, { replay with context }, ?_, represents.excuses structured reliable.1 stops⟩
    exact Action.stops_bind_iff.mpr (.inl (Replay.stops_onContext_iff.mpr ⟨_, stops, rfl⟩))

theorem apply {index : Nat} {request : Request} (stands : replay.Stands names pool parts)
    (marked : request.controlMark? = some mark) (resolves : names.resolve index request = .ok task)
    (settles : task.settle names pool = some (known, left)) :
    (∃ after next, (Replay.apply index request).Yields replay () after ∧
      OpenPart.advance parts mark = some next ∧ after.Stands known left next) ∨
    ∃ error after, (Replay.apply index request).Stops replay (.emission index request.name error) after ∧
      error.Excuses parts mark := by
  have outcome :
      (∃ after next, (Replay.perform task).Yields replay () after ∧
        OpenPart.advance parts mark = some next ∧ after.Stands known left next) ∨
      ∃ error after, (Replay.perform task).Stops replay error after ∧ error.Excuses parts mark := by
    -- Tasks that are no steps bind or free a slot, and their requests are plain.
    by_cases steps : ∃ step, task = .step step
    · obtain ⟨step, rfl⟩ := steps
      cases settles
      exact stands.step (Names.resolve_controlMark? marked resolves)
    · have other : ∀ step, task ≠ .step step := fun step same => steps ⟨step, same⟩
      obtain ⟨rfl, unlabelled⟩ := Names.resolve_plain marked resolves other
      obtain ⟨after, performs, settled⟩ := stands.settle settles other unlabelled
      exact .inl ⟨after, parts, performs, by cases parts <;> rfl, settled⟩
  rw [← stands.names] at resolves
  obtain ⟨after, next, performs, advances, stood⟩ | ⟨error, after, stops, excused⟩ := outcome
  · refine .inl ⟨after, next, ?_, advances, stood⟩
    exact Action.yields_bind_iff.mpr ⟨_, _, Action.yields_read_iff.mpr ⟨rfl, rfl⟩,
      Action.yields_bind_iff.mpr ⟨task, _, Action.yields_ofExcept_iff.mpr ⟨resolves, rfl⟩,
        Action.yields_mapError_iff.mpr performs⟩⟩
  · refine .inr ⟨error, after, ?_, excused⟩
    exact Action.stops_bind_iff.mpr (.inr ⟨_, _, Action.yields_read_iff.mpr ⟨rfl, rfl⟩,
      Action.stops_bind_iff.mpr (.inr ⟨task, _, Action.yields_ofExcept_iff.mpr ⟨resolves, rfl⟩,
        Action.stops_mapError_iff.mpr ⟨error, stops, rfl⟩⟩)⟩)

theorem tally (stands : replay.Stands names pool parts) : replay.tally.Stands names pool parts :=
  ⟨stands.names, stands.pool, stands.parts, stands.reliable⟩

/-- A run of requests reads their marks to the end, or stops at the first that is refused. -/
theorem applyAll {index : Nat} {requests : List Request} {marks : List ControlMark}
    (stands : replay.Stands names pool parts) (marked : requests.map Request.controlMark? = marks.map some)
    (resolves : names.resolvesAll pool index requests = true) :
    (∃ after last known left, (Replay.applyAll index requests).Yields replay () after ∧
      OpenPart.scan parts marks = some last ∧ after.Stands known left last) ∨
    ∃ done request mark reached error after,
      (Replay.applyAll index requests).Stops replay (.emission (index + done) request.name error) after ∧
      requests[done]? = some request ∧ marks[done]? = some mark ∧
      OpenPart.scan parts (marks.take done) = some reached ∧ error.Excuses reached mark := by
  induction requests generalizing replay names pool parts index marks with
  | nil =>
    obtain rfl : marks = [] := List.map_eq_nil_iff.mp marked.symm
    exact .inl ⟨replay, parts, names, pool, Action.yields_pure_iff.mpr ⟨rfl, rfl⟩, rfl, stands⟩
  | cons request rest ih =>
    obtain ⟨mark, others, rfl, own, marked⟩ := List.map_eq_cons_iff.mp marked.symm
    obtain ⟨task, known, left, resolved, settled, resolves⟩ := Names.resolvesAll_cons_iff.mp resolves
    have reports : (Action.report (.requested index request) : Action ReplayError Replay Unit).Yields replay () replay :=
      Action.yields_report_iff.mpr rfl
    obtain ⟨after, next, applies, advances, stood⟩ | ⟨error, after, stops, excused⟩ :=
      stands.apply own.symm resolved settled
    · have scans (more : List ControlMark) : OpenPart.scan parts (mark :: more) = OpenPart.scan next more := by
        simp [OpenPart.scan, advances]
      have counts : (Action.update Replay.tally : Action ReplayError Replay Unit).Yields after () after.tally :=
        Action.yields_update_iff.mpr rfl
      obtain ⟨last, reached, known, left, runs, scanned, ended⟩ |
        ⟨done, other, otherMark, reached, error, last, stops, found, foundMark, scanned, excused⟩ :=
        ih stood.tally marked.symm resolves
      · refine .inl ⟨last, reached, known, left, ?_, (scans others).trans scanned, ended⟩
        exact Action.yields_bind_iff.mpr ⟨(), _, reports, Action.yields_bind_iff.mpr ⟨(), _, applies,
          Action.yields_bind_iff.mpr ⟨(), _, counts, runs⟩⟩⟩
      · refine .inr ⟨done + 1, other, otherMark, reached, error, last, ?_, found, foundMark,
          (scans _).trans scanned, excused⟩
        rw [Nat.add_right_comm, Nat.add_assoc] at stops
        exact Action.stops_bind_iff.mpr (.inr ⟨(), _, reports, Action.stops_bind_iff.mpr (.inr ⟨(), _, applies,
          Action.stops_bind_iff.mpr (.inr ⟨(), _, counts, stops⟩)⟩)⟩)
    · refine .inr ⟨0, request, mark, parts, error, after, ?_, rfl, rfl, rfl, excused⟩
      exact Action.stops_bind_iff.mpr (.inr ⟨(), _, reports, Action.stops_bind_iff.mpr (.inl stops)⟩)

end Replay.Stands

/-! ## Whole scripts -/

/-- Whether an error is about the limits that the options set. -/
def ReplayError.isLimit : ReplayError → Bool
  | .emission _ _ cause | .finish cause => cause.isLimit
  | _ => false

theorem Replay.stands_begun {options : Options} {stream : Stream} (reliable : stream.IsReliable) :
    (Replay.start (Context.start options stream)).begun.Stands {} .fresh [] where
  names := rfl
  pool := rfl
  parts := .nil
  reliable := reliable

/-- A replay that meets no limit reads all marks and ends by what is still open, or stops at a mark that may not
stand where it stands. -/
theorem Script.replay_outcome {script : Script} {options : Options} {stream : Stream} {marks : List ControlMark}
    (marked : script.requests.map Request.controlMark? = marks.map some)
    (resolves : ({} : Names).resolvesAll .fresh 0 script.requests = true) (reliable : stream.IsReliable)
    (unlimited : ∀ error, (script.replay options stream).result = .error error → error.isLimit = false) :
    (∃ parts, OpenPart.scan [] marks = some parts ∧
      (script.replay options stream).result =
        if parts = [] then .ok () else .error (.finish (.unclosedLevels (OpenPart.levels parts)))) ∨
    ∃ done request mark reached, script.requests[done]? = some request ∧ marks[done]? = some mark ∧
      OpenPart.scan [] (marks.take done) = some reached ∧ OpenPart.advance reached mark = none ∧
      (script.replay options stream).result = .error (.emission done request.name (mark.refusal reached)) := by
  obtain ⟨after, parts, known, left, yields, scanned, stands⟩ |
    ⟨done, request, mark, reached, error, after, stops, found, foundMark, scanned, excused⟩ :=
    (Replay.stands_begun reliable).applyAll marked resolves
  · refine .inl ⟨parts, scanned, ?_⟩
    have depth : after.context.stack.depth = OpenPart.levels parts := by
      rw [← stands.parts.length_eq, Context.outline, List.length_map, BufferStack.depth]
    -- Every open part lies on a level at least, so nothing is open exactly when no level is.
    have closed : after.context.stack.levels = [] ↔ parts = [] := by
      rw [← OpenPart.levels_eq_zero_iff, ← depth, BufferStack.depth, List.length_eq_zero_iff]
    have ends := Replay.run_ends (Replay.start (Context.start options stream)) reliable.1 rfl yields stands.reliable
    simp only [closed, depth] at ends
    exact ends
  · have result := Replay.run_stops (Replay.start (Context.start options stream)) reliable.1 rfl stops
    rw [Nat.zero_add] at result
    -- A limit is ruled out, which leaves the refusal.
    obtain limited | ⟨refused, rfl⟩ := excused
    · have allowed := unlimited _ result
      rw [ReplayError.isLimit, limited] at allowed
      cases allowed
    · exact .inr ⟨done, request, mark, reached, found, foundMark, scanned, refused, result⟩

theorem OpenPart.not_extendable_of_refused {marks : List ControlMark} {mark : ControlMark} {parts : List OpenPart}
    {done : Nat} (found : marks[done]? = some mark) (scanned : scan [] (marks.take done) = some parts)
    (refused : advance parts mark = none) : ¬ Extendable (marks.take (done + 1)) := by
  rw [extendable_iff, List.take_add_one, found]
  simp [scan_append, scanned, scan, refused]

/-- A replay of structured requests that meets no limit succeeds exactly when their marks are a word of the
grammar. Otherwise it stops at the first request after which no continuation is a word, for want of an open
construct or because of the one that is open, or at the end of the program with the levels that are left. -/
theorem Script.replay_accepts_well_nested (script : Script) (options : Options) (stream : Stream)
    (marks : List ControlMark) (marked : script.requests.map Request.controlMark? = marks.map some)
    (resolves : ({} : Names).resolvesAll .fresh 0 script.requests = true) (reliable : stream.IsReliable)
    (unlimited : ∀ error, (script.replay options stream).result = .error error → error.isLimit = false) :
    ((script.replay options stream).result = .ok () ↔ WellNested false marks) ∧
    (∀ index request, script.requests[index]? = some request →
      Extendable (marks.take index) → ¬ Extendable (marks.take (index + 1)) →
      (WellNested false (marks.take index) →
        (script.replay options stream).result = .error (.emission index request.name .emptyStack)) ∧
      (¬ WellNested false (marks.take index) → ∃ expected found,
        (script.replay options stream).result =
          .error (.emission index request.name (.constructMismatch expected found)))) ∧
    (Extendable marks → ¬ WellNested false marks → ∃ parts, OpenPart.scan [] marks = some parts ∧ parts ≠ [] ∧
      (script.replay options stream).result = .error (.finish (.unclosedLevels (OpenPart.levels parts)))) := by
  simp only [← OpenPart.scan_eq_nil_iff]
  obtain ⟨parts, scanned, result⟩ | ⟨done, request, mark, reached, found, foundMark, scanned, refused, result⟩ :=
    Script.replay_outcome marked resolves reliable unlimited
  · have extendable : Extendable marks := extendable_iff.mpr ⟨parts, scanned⟩
    rw [result, scanned]
    refine ⟨?_, ?_, ?_⟩
    · by_cases closed : parts = [] <;> simp [closed]
    · intro index request _ _ behind
      have whole := List.take_append_drop (index + 1) marks
      exact absurd (Extendable.of_append (whole ▸ extendable)) behind
    · intro _ unread
      have isOpen : parts ≠ [] := by simpa using unread
      exact ⟨parts, rfl, isOpen, if_neg isOpen⟩
  · have stuck := OpenPart.not_extendable_of_refused foundMark scanned refused
    have reachable : Extendable (marks.take done) := extendable_iff.mpr ⟨reached, scanned⟩
    have unreadable : ¬ Extendable marks := by
      intro extendable
      have whole := List.take_append_drop (done + 1) marks
      exact stuck (Extendable.of_append (whole ▸ extendable))
    rw [result]
    refine ⟨?_, ?_, ?_⟩
    · simp only [reduceCtorEq, false_iff]
      intro accepted
      exact unreadable (extendable_iff.mpr ⟨[], accepted⟩)
    · intro index other foundOther before behind
      -- The prefix stops being extendable at one place only, so this is the request that was refused.
      obtain earlier | rfl | later := Nat.lt_trichotomy index done
      · exact absurd (reachable.take_of_le earlier) behind
      · rw [found] at foundOther
        cases foundOther
        rw [scanned]
        cases reached with
        | nil => simp [ControlMark.refusal]
        | cons part parts => simp [ControlMark.refusal]
      · exact absurd (before.take_of_le later) stuck
    · intro extendable
      exact absurd extendable unreadable

/-- Tests the condition of a loop once where it may stand and once inside a conditional. -/
def Script.misplacedTest : Script where
  strings := []
  requests := [
    .alloc "c",
    .beginWhile,
    .readInt "c",
    .loopTest "c",
    .beginIf "c",
    .writeReg "c",
    .beginElse,
    .loopTest "c",
    .endIf,
    .endWhile,
    .free "c"]

theorem Script.replay_accepts_well_nested_misplacedTest :
    ¬ WellNested false
        [.plain, .beginWhile, .plain, .loopTest, .beginIf, .plain, .beginElse, .loopTest, .endIf, .endWhile, .plain] ∧
      ∃ expected found,
        (misplacedTest.replay {} {}).result =
          .error (.emission 7 "loop_test" (.constructMismatch expected found)) := by
  have fails : (misplacedTest.replay {} {}).result.isOk = false := by decide +kernel
  have unlimited : ∀ error, (misplacedTest.replay {} {}).result = .error error → error.isLimit = false := by
    have checked : (match (misplacedTest.replay {} {}).result with
        | .error error => error.isLimit
        | .ok _ => true) = false := by
      decide +kernel
    intro error same
    rwa [same] at checked
  obtain ⟨accepted, refused, _⟩ := misplacedTest.replay_accepts_well_nested {} {}
    [.plain, .beginWhile, .plain, .loopTest, .beginIf, .plain, .beginElse, .loopTest, .endIf, .endWhile, .plain]
    rfl (by decide +kernel) ⟨rfl, rfl⟩ unlimited
  refine ⟨fun nested => ?_, (refused 7 (.loopTest "c") rfl ?_ ?_).2 ?_⟩
  · rw [accepted.mpr nested] at fails
    cases fails
  · exact extendable_iff.mpr ⟨[.second, .loop], by decide⟩
  · rw [extendable_iff]
    rintro ⟨parts, scanned⟩
    cases scanned
  · rw [← OpenPart.scan_eq_nil_iff]
    decide

end MipsBackend
