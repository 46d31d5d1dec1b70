import MipsBackend.Proofs.DirectEmission

/-! # Runs side by side

Some properties are about two runs of the same steps from contexts that differ in one respect: in the stream,
in the limits, or in what happened before. They are proved by showing that the runs stay in step.

* `Comparison`: which states of the two runs correspond, and when one of them may stop alone.
* `Comparison.Respects`: an action that leads from corresponding states to outcomes that agree.
* `EmissionComparison`: a comparison that the primitive steps respect. The control steps, the framing of a
  program and the requests of a script are made of these, so they respect it as well.
* `EmissionComparison.applyAll_agrees`: two replays go alike up to the request where one of them stops alone.
-/

namespace MipsBackend

variable {ε ε' σ α β : Type}

/-! ## Actions -/

/-- How two runs of one action are compared. -/
structure Comparison (ε σ : Type) where
  /-- A state of the first run corresponds to a state of the second. -/
  Related : σ → σ → Prop
  /-- The second run may come from one state to another. -/
  Later : σ → σ → Prop
  /-- The first run may stop alone with an error, by the states in which both are then. -/
  Lapsed : ε → σ → σ → Prop
  /-- The second run may stop alone with an error. -/
  Excused : ε → Prop
  later_refl (state : σ) : Later state state
  later_trans {first second third : σ} : Later first second → Later second third → Later first third
  lapsed_later {error : ε} {state reached next : σ} :
    Lapsed error state reached → Later reached next → Lapsed error state next

namespace Comparison

variable {comparison : Comparison ε σ}

/-- Both runs end alike, or one of them stops where it may. -/
inductive Agrees (comparison : Comparison ε σ) (left right : Outcome ε σ α) : Prop
  | alike (same : left.result = right.result) (related : comparison.Related left.state right.state)
  | lapsed {error : ε} (stopped : left.result = .error error)
      (lapse : comparison.Lapsed error left.state right.state)
  | excused {error : ε} (stopped : right.result = .error error) (excuse : comparison.Excused error)

/-- From related states the action leads to outcomes that agree. Once the first run has stopped alone, the
second may go on with the action. -/
structure Respects (comparison : Comparison ε σ) (action : Action ε σ α) : Prop where
  advances : ∀ state, comparison.Later state (action state).state
  agrees : ∀ {left right}, comparison.Related left right → comparison.Agrees (action left) (action right)

/-- An action that only looks, and sees the same in related states. -/
theorem respects_of_still {action : Action ε σ α} (still : ∀ state, (action state).state = state)
    (same : ∀ {left right}, comparison.Related left right → (action left).result = (action right).result) :
    comparison.Respects action where
  advances := by
    intro state
    rw [still]
    exact comparison.later_refl state
  agrees := by
    intro left right related
    refine .alike (same related) ?_
    rwa [still, still]

theorem respects_pure (value : α) : comparison.Respects (pure value) :=
  respects_of_still (fun _ => rfl) fun _ => rfl

theorem respects_fail (error : ε) : comparison.Respects (Action.fail error : Action ε σ α) :=
  respects_of_still (fun _ => rfl) fun _ => rfl

theorem respects_report (event : Event) : comparison.Respects (Action.report event) :=
  respects_of_still (fun _ => rfl) fun _ => rfl

theorem respects_ofExcept (result : Except ε α) : comparison.Respects (Action.ofExcept result) :=
  respects_of_still (fun _ => rfl) fun _ => rfl

theorem respects_update {f : σ → σ} (later : ∀ state, comparison.Later state (f state))
    (related : ∀ {left right}, comparison.Related left right → comparison.Related (f left) (f right)) :
    comparison.Respects (Action.update f) where
  advances := later
  agrees := fun corresponds => .alike rfl (related corresponds)

namespace Respects

variable {action : Action ε σ α}

theorem bind {next : α → Action ε σ β} (first : comparison.Respects action)
    (second : ∀ value, comparison.Respects (next value)) : comparison.Respects (action >>= next) := by
  have onward (state : σ) : comparison.Later (action state).state ((action >>= next) state).state := by
    cases result : (action state).result with
    | ok value =>
      rw [Action.bind_eq_of_ok result]
      exact (second value).advances _
    | error error =>
      rw [Action.bind_eq_of_error result]
      exact comparison.later_refl _
  refine ⟨fun state => comparison.later_trans (first.advances state) (onward state), ?_⟩
  intro left right related
  cases first.agrees related with
  | alike same related =>
    cases result : (action right).result with
    | ok value =>
      rw [Action.bind_eq_of_ok (same.trans result), Action.bind_eq_of_ok result]
      -- Only the events differ from those of the second part alone.
      cases (second value).agrees related with
      | alike same related => exact .alike same related
      | lapsed stopped lapse => exact .lapsed stopped lapse
      | excused stopped excuse => exact .excused stopped excuse
    | error error =>
      rw [Action.bind_eq_of_error (same.trans result), Action.bind_eq_of_error result]
      exact .alike rfl related
  | lapsed stopped lapse =>
    have moved := comparison.lapsed_later lapse (onward right)
    rw [Action.bind_eq_of_error stopped]
    exact .lapsed rfl moved
  | excused stopped excuse =>
    refine .excused ?_ excuse
    rw [Action.bind_eq_of_error stopped]

theorem map {f : α → β} (respects : comparison.Respects action) : comparison.Respects (f <$> action) := by
  rw [map_eq_pure_bind]
  exact respects.bind fun value => respects_pure (f value)

/-- What an action does with the state it reads is the same in related states. -/
theorem read_bind {next : σ → Action ε σ α} (respects : ∀ state, comparison.Respects (next state))
    (same : ∀ {left right}, comparison.Related left right → next left = next right) :
    comparison.Respects (Action.read >>= next) where
  advances := fun state => (respects state).advances state
  agrees := by
    intro left right related
    have agrees := (respects right).agrees related
    show comparison.Agrees (next left left) (next right right)
    rwa [same related]

theorem ofExcept_bind {result : Except ε α} {next : α → Action ε σ β}
    (respects : ∀ value, result = .ok value → comparison.Respects (next value)) :
    comparison.Respects (Action.ofExcept result >>= next) := by
  cases result with
  | error error => exact respects_fail error
  | ok value => exact respects value rfl

theorem reportingFailure {describe : σ → List Event} (respects : comparison.Respects action) :
    comparison.Respects (action.reportingFailure describe) := by
  have kept (state : σ) : (action.reportingFailure describe state).result = (action state).result ∧
      (action.reportingFailure describe state).state = (action state).state := by
    cases result : (action state).result <;> simp [Action.reportingFailure, result]
  refine ⟨fun state => (kept state).2 ▸ respects.advances state, ?_⟩
  intro left right related
  cases respects.agrees related with
  | alike same related =>
    apply Agrees.alike
    · rw [(kept left).1, (kept right).1, same]
    · rwa [(kept left).2, (kept right).2]
  | lapsed stopped lapse =>
    refine .lapsed ((kept left).1.trans stopped) ?_
    rwa [(kept left).2, (kept right).2]
  | excused stopped excuse => exact .excused ((kept right).1.trans stopped) excuse

end Respects

/-- The same comparison where errors are reworded. -/
def reworded (comparison : Comparison ε σ) (reword : ε → ε') : Comparison ε' σ where
  Related := comparison.Related
  Later := comparison.Later
  Lapsed error state reached := ∃ cause, reword cause = error ∧ comparison.Lapsed cause state reached
  Excused error := ∃ cause, reword cause = error ∧ comparison.Excused cause
  later_refl := comparison.later_refl
  later_trans := comparison.later_trans
  lapsed_later := by
    rintro error state reached next ⟨cause, worded, lapse⟩ later
    exact ⟨cause, worded, comparison.lapsed_later lapse later⟩

theorem Respects.mapError {action : Action ε σ α} (respects : comparison.Respects action) (reword : ε → ε') :
    (comparison.reworded reword).Respects (action.mapError reword) where
  advances := respects.advances
  agrees := by
    intro left right related
    cases respects.agrees related with
    | alike same related => exact .alike (by simp only [Action.mapError, same]) related
    | lapsed stopped lapse => exact .lapsed (by simp only [Action.mapError, stopped, exceptMapError_error]) ⟨_, rfl, lapse⟩
    | excused stopped excuse => exact .excused (by simp only [Action.mapError, stopped, exceptMapError_error]) ⟨_, rfl, excuse⟩

end Comparison

/-! ## Steps of code generation -/

/-- Where both runs annotate alike, a fragment is the same text for both. -/
theorem Comparison.respects_emitFragment {comparison : Comparison EmitError Context}
    (sameStyle : ∀ {left right}, comparison.Related left right → left.options.annotate = right.options.annotate)
    (append : ∀ text, comparison.Respects (Emission.append text)) (fragment : Fragment) :
    comparison.Respects (Emission.emitFragment fragment) :=
  .read_bind (fun _ => append _) fun related => by rw [sameStyle related]

/-- A comparison of contexts that the primitive steps respect. -/
structure EmissionComparison extends Comparison EmitError Context where
  outline_eq {left right : Context} : Related left right → left.outline = right.outline
  pool_eq {left right : Context} : Related left right → left.pool = right.pool
  labels_eq {left right : Context} : Related left right → left.labels = right.labels
  /-- Registers and labels have no part in the comparison. -/
  related_with {left right : Context} (pool : RegisterPool) (labels : LabelSupply) :
    Related left right → Related { left with pool, labels } { right with pool, labels }
  later_with (context : Context) (pool : RegisterPool) (labels : LabelSupply) :
    Later context { context with pool, labels }
  append (text : String) : toComparison.Respects (Emission.append text)
  emitFragment (fragment : Fragment) : toComparison.Respects (Emission.emitFragment fragment)
  push (construct : Construct) : toComparison.Respects (Emission.push construct)
  merge (count : Nat) : toComparison.Respects (Emission.merge count)
  close : toComparison.Respects Emission.close

namespace EmissionComparison

variable (comparison : EmissionComparison)

theorem onPool (action : Action EmitError RegisterPool α) : comparison.Respects (Emission.onPool action) where
  advances := fun context => comparison.later_with context _ context.labels
  agrees := by
    intro left right related
    have kept := comparison.related_with (action right.pool).state right.labels related
    apply Comparison.Agrees.alike
    · simp only [Emission.onPool, Action.focus, comparison.pool_eq related]
    · simpa only [Emission.onPool, Action.focus, comparison.pool_eq related, ← comparison.labels_eq related] using kept

theorem newLabel : comparison.Respects Emission.newLabel where
  advances := fun context => comparison.later_with context context.pool _
  agrees := by
    intro left right related
    have kept := comparison.related_with right.pool right.labels.next.2 related
    apply Comparison.Agrees.alike
    · simp only [Emission.newLabel, comparison.labels_eq related]
    · simpa only [Emission.newLabel, comparison.labels_eq related, ← comparison.pool_eq related] using kept

theorem emit (operation : Operation) : comparison.Respects (Emission.emit operation) :=
  comparison.emitFragment operation.fragment

theorem depth_eq {left right : Context} (related : comparison.Related left right) :
    left.stack.depth = right.stack.depth := by
  have lengths := congrArg List.length (comparison.outline_eq related)
  simpa [Context.outline, BufferStack.depth] using lengths

/-! ### Control steps -/

theorem topConstruct : comparison.Respects Emission.topConstruct := by
  have shown (context : Context) :
      (Emission.topConstruct context).result =
          (match context.outline.head? with
            | some construct => .ok construct
            | none => .error .emptyStack) ∧
        (Emission.topConstruct context).state = context := by
    obtain ⟨construct, after, yields⟩ | ⟨error, after, stops⟩ := Emission.topConstruct.yields_or_stops context
    · obtain ⟨head, rfl⟩ := Emission.topConstruct_yields_iff.mp yields
      exact ⟨by rw [yields.1, head], yields.2⟩
    · obtain ⟨nothing, rfl, rfl⟩ := Emission.topConstruct_stops_iff.mp stops
      exact ⟨by rw [stops.1, nothing]; rfl, stops.2⟩
  refine Comparison.respects_of_still (fun context => (shown context).2) ?_
  intro left right related
  rw [(shown left).1, (shown right).1, comparison.outline_eq related]

theorem beginIf (cond : Reg) : comparison.Respects (Emission.beginIf cond) := by
  refine comparison.newLabel.bind fun elseLabel => comparison.newLabel.bind fun endLabel => ?_
  exact (comparison.emit _).bind fun _ => comparison.push _

theorem beginElse : comparison.Respects Emission.beginElse := by
  refine comparison.topConstruct.bind fun construct => ?_
  split
  · exact (comparison.emit _).bind fun _ => (comparison.push _).bind fun _ => comparison.emit _
  · exact Comparison.respects_fail _

theorem endIf : comparison.Respects Emission.endIf := by
  refine comparison.topConstruct.bind fun construct => ?_
  split
  · exact (comparison.merge 2).bind fun _ => comparison.close.bind fun _ => comparison.emit _
  · exact comparison.close.bind fun _ => comparison.emit _
  · exact Comparison.respects_fail _

theorem beginWhile : comparison.Respects Emission.beginWhile := by
  refine comparison.newLabel.bind fun entryLabel => comparison.newLabel.bind fun exitLabel => ?_
  exact (comparison.push _).bind fun _ => comparison.emit _

theorem loopLabels : comparison.Respects Emission.loopLabels := by
  refine comparison.topConstruct.bind fun construct => ?_
  split
  · exact Comparison.respects_pure _
  · exact Comparison.respects_fail _

theorem loopTest (cond : Reg) : comparison.Respects (Emission.loopTest cond) :=
  comparison.loopLabels.bind fun _ => comparison.emit _

theorem endWhile : comparison.Respects Emission.endWhile := by
  refine comparison.loopLabels.bind fun labels => ?_
  refine (comparison.emit _).bind fun _ => (comparison.emit _).bind fun _ => ?_
  exact comparison.close.bind fun _ => Comparison.respects_pure _

/-! ### Framing a program -/

theorem ensureUnbuffered : comparison.Respects Emission.ensureUnbuffered := by
  refine .read_bind (fun context => ?_) fun related => by rw [comparison.depth_eq related]
  split
  · exact Comparison.respects_pure _
  · exact Comparison.respects_fail _

theorem epilog : comparison.Respects Emission.epilog :=
  comparison.ensureUnbuffered.bind fun _ => comparison.emitFragment _

theorem stringLiterals (table : StringTable) : comparison.Respects (Emission.stringLiterals table) := by
  refine comparison.ensureUnbuffered.bind fun _ => (Comparison.respects_ofExcept _).bind fun entries => ?_
  exact (Comparison.respects_report _).bind fun _ => comparison.emitFragment _

theorem finish (table : StringTable) : comparison.Respects (Emission.finish table) :=
  comparison.epilog.bind fun _ => comparison.stringLiterals table

end EmissionComparison

/-- Whether a step keeps to what every comparison covers: it does not show limits or whole levels, and does not
give up the levels. -/
def Step.isCompared : Step → Bool
  | options | top | enclosing | reset | release => false
  | _ => true

theorem EmissionComparison.perform (comparison : EmissionComparison) {step : Step}
    (compared : step.isCompared = true) : comparison.Respects step.perform := by
  have looks (f : Context → Answer)
      (same : ∀ {left right}, comparison.Related left right → f left = f right) :
      comparison.Respects (f <$> Action.read) := by
    refine Comparison.respects_of_still (fun _ => rfl) fun related => ?_
    exact congrArg Except.ok (same related)
  cases step with
  | alloc => exact (comparison.onPool _).reportingFailure.map
  | free reg => exact (comparison.onPool _).map
  | isFree reg => exact looks _ fun related => by rw [comparison.pool_eq related]
  | busy => exact looks _ fun related => by rw [comparison.pool_eq related]
  | peek => exact looks _ fun related => by rw [comparison.labels_eq related]
  | isBuffered =>
    refine looks _ fun {left right} related => ?_
    have same : left.stack.isEmpty = right.stack.isEmpty := by
      simpa [Context.outline, BufferStack.isEmpty] using congrArg List.isEmpty (comparison.outline_eq related)
    simp only [Context.isBuffered, same]
  | label => exact comparison.newLabel.map
  | push construct => exact (comparison.push construct).map
  | merge count => exact (comparison.merge count).map
  | close => exact comparison.close.map
  | append text => exact (comparison.append text).map
  | appendAll insts => exact (comparison.append _).map
  | emit operation => exact (comparison.emit operation).map
  | prolog => exact (comparison.emitFragment _).map
  | epilog => exact comparison.epilog.map
  | stringLiterals table => exact (comparison.stringLiterals table).map
  | finish table => exact (comparison.finish table).map
  | beginIf cond => exact (comparison.beginIf cond).map
  | beginElse => exact comparison.beginElse.map
  | endIf => exact comparison.endIf.map
  | beginWhile => exact comparison.beginWhile.map
  | loopTest cond => exact (comparison.loopTest cond).map
  | endWhile => exact comparison.endWhile.map
  | options | top | enclosing | reset | release => cases compared

theorem Step.isCompared_of_isScripted {step : Step} (scripted : step.isScripted = true) :
    step.isCompared = true := by
  cases step <;> first | rfl | cases scripted

/-! ## Requests -/

/-- The replay of a script on a stream that takes everything, once the first `count` requests are through or one of
them failed. -/
def Script.partway (script : Script) (options : Options) (count : Nat) : Replay :=
  (Replay.applyAll 0 (script.requests.take count) (Replay.start (Context.start options {})).begun).state

namespace Replay

theorem applyAll_cons_of_ok {index : Nat} {request : Request} {replay : Replay} (rest : List Request)
    (ok : (apply index request replay).result = .ok ()) :
    (applyAll index (request :: rest) replay).result =
        (applyAll (index + 1) rest (apply index request replay).state.tally).result ∧
      (applyAll index (request :: rest) replay).state =
        (applyAll (index + 1) rest (apply index request replay).state.tally).state := by
  simp [applyAll, Bind.bind, Action.bind, ok]

theorem applyAll_cons_of_error {index : Nat} {request : Request} {replay : Replay} {error : ReplayError}
    (rest : List Request) (failed : (apply index request replay).result = .error error) :
    (applyAll index (request :: rest) replay).result = .error error ∧
      (applyAll index (request :: rest) replay).state = (apply index request replay).state := by
  simp [applyAll, Bind.bind, Action.bind, failed]

/-- Counting a request leaves the context as the request left it. -/
theorem context_applyAll_singleton (index : Nat) (request : Request) (replay : Replay) :
    (applyAll index [request] replay).state.context = (apply index request replay).state.context := by
  cases result : (apply index request replay).result with
  | ok value =>
    rw [(applyAll_cons_of_ok _ result).2]
    rfl
  | error error => rw [(applyAll_cons_of_error _ result).2]

end Replay

namespace EmissionComparison

variable (comparison : EmissionComparison)

/-- Replays compare by their contexts, and know the same names and figures. -/
def onReplay : Comparison EmitError Replay where
  Related left right :=
    left.names = right.names ∧ left.summary = right.summary ∧ comparison.Related left.context right.context
  Later earlier later := comparison.Later earlier.context later.context
  Lapsed error left right := comparison.Lapsed error left.context right.context
  Excused := comparison.Excused
  later_refl replay := comparison.later_refl replay.context
  later_trans := comparison.later_trans
  lapsed_later := comparison.lapsed_later

theorem onContext {emission : Emission α} (respects : comparison.Respects emission) :
    comparison.onReplay.Respects (Replay.onContext emission) where
  advances := fun replay => respects.advances replay.context
  agrees := by
    rintro left right ⟨names, summary, related⟩
    cases respects.agrees related with
    | alike same related => exact .alike same ⟨names, summary, related⟩
    | lapsed stopped lapse => exact .lapsed stopped lapse
    | excused stopped excuse => exact .excused stopped excuse

theorem rename (rename : Names → Names) :
    comparison.onReplay.Respects (Action.update fun replay => { replay with names := rename replay.names }) := by
  refine Comparison.respects_update (fun replay => comparison.later_refl replay.context) ?_
  rintro left right ⟨names, summary, related⟩
  exact ⟨by rw [names], summary, related⟩

theorem performTask {task : Task} (scripted : ∀ step, task = .step step → step.isScripted = true) :
    comparison.onReplay.Respects (Replay.perform task) := by
  cases task with
  | bindSlot name =>
    refine (comparison.onContext (comparison.onPool _).reportingFailure).bind fun reg => ?_
    exact comparison.rename fun names => names.bindSlot name reg
  | freeSlot name reg =>
    refine (comparison.onContext (comparison.onPool _)).bind fun _ => ?_
    exact comparison.rename fun names => names.unbindSlot name
  | bindLabel name =>
    refine (comparison.onContext comparison.newLabel).bind fun label => ?_
    exact comparison.rename fun names => names.bindLabel name label
  | step step =>
    have compared := Step.isCompared_of_isScripted (scripted step rfl)
    exact (comparison.onContext (comparison.perform compared)).bind fun _ => Comparison.respects_pure _

theorem apply (index : Nat) (request : Request) :
    (comparison.onReplay.reworded (.emission index request.name)).Respects (Replay.apply index request) := by
  refine .read_bind (fun replay => ?_) ?_
  · refine .ofExcept_bind fun task resolves => ?_
    refine (comparison.performTask ?_).mapError _
    rintro step rfl
    exact Names.resolve_step resolves
  · rintro left right ⟨names, -, -⟩
    rw [names]

theorem related_tally {left right : Replay} (related : comparison.onReplay.Related left right) :
    comparison.onReplay.Related left.tally right.tally := by
  obtain ⟨names, summary, contexts⟩ := related
  refine ⟨names, ?_, contexts⟩
  simp only [Replay.tally, summary, comparison.depth_eq contexts, comparison.pool_eq contexts]

theorem later_applyAll (index : Nat) (requests : List Request) (replay : Replay) :
    comparison.Later replay.context (Replay.applyAll index requests replay).state.context := by
  induction requests generalizing index replay with
  | nil => exact comparison.later_refl _
  | cons request rest ih =>
    have advances := (comparison.apply index request).advances replay
    cases result : (Replay.apply index request replay).result with
    | ok value =>
      rw [(Replay.applyAll_cons_of_ok _ result).2]
      exact comparison.later_trans advances (ih (index + 1) (Replay.apply index request replay).state.tally)
    | error error =>
      rw [(Replay.applyAll_cons_of_error _ result).2]
      exact advances

/-- More requests only lead further. -/
theorem later_applyAll_append (index : Nat) (before after : List Request) (replay : Replay) :
    comparison.Later (Replay.applyAll index before replay).state.context
      (Replay.applyAll index (before ++ after) replay).state.context := by
  induction before generalizing index replay with
  | nil => exact comparison.later_applyAll index after replay
  | cons request rest ih =>
    rw [List.cons_append]
    cases result : (Replay.apply index request replay).result with
    | ok value =>
      rw [(Replay.applyAll_cons_of_ok _ result).2, (Replay.applyAll_cons_of_ok _ result).2]
      exact ih (index + 1) _
    | error error =>
      rw [(Replay.applyAll_cons_of_error _ result).2, (Replay.applyAll_cons_of_error _ result).2]
      exact comparison.later_refl _

/-- How two replays of the same requests compare. -/
inductive AgreesOn (index : Nat) (requests : List Request) (left right : Replay) : Prop
  | alike
      (same : (Replay.applyAll index requests left).result = (Replay.applyAll index requests right).result)
      (related : comparison.onReplay.Related (Replay.applyAll index requests left).state
        (Replay.applyAll index requests right).state)
  /-- The first replay stops alone at a request; the requests before it went alike. -/
  | lapsed (position : Nat) (request : Request) (cause : EmitError)
      (present : requests[position]? = some request)
      (related : comparison.onReplay.Related (Replay.applyAll index (requests.take position) left).state
        (Replay.applyAll index (requests.take position) right).state)
      (stopped : (Replay.applyAll index requests left).result =
        .error (.emission (index + position) request.name cause))
      (lapse : comparison.Lapsed cause (Replay.applyAll index requests left).state.context
        (Replay.applyAll index (requests.take (position + 1)) right).state.context)
  | excused {error : ReplayError} {cause : EmitError}
      (stopped : (Replay.applyAll index requests right).result = .error error)
      (excuse : comparison.Excused cause)

theorem applyAll_agrees {index : Nat} {requests : List Request} {left right : Replay}
    (related : comparison.onReplay.Related left right) : comparison.AgreesOn index requests left right := by
  induction requests generalizing index left right with
  | nil => exact .alike rfl related
  | cons request rest ih =>
    cases (comparison.apply index request).agrees related with
    | alike same together =>
      cases result : (Replay.apply index request right).result with
      | error error =>
        have leftEnds := Replay.applyAll_cons_of_error rest (same.trans result)
        have rightEnds := Replay.applyAll_cons_of_error rest result
        refine .alike (leftEnds.1.trans rightEnds.1.symm) ?_
        rw [leftEnds.2, rightEnds.2]
        exact together
      | ok value =>
        -- Both go on from related states, and what comes of the others is one position further.
        have leftGoes (others : List Request) := Replay.applyAll_cons_of_ok others (same.trans result)
        have rightGoes (others : List Request) := Replay.applyAll_cons_of_ok others result
        have others : comparison.AgreesOn (index + 1) rest _ _ := ih (comparison.related_tally together)
        cases others with
        | alike sameRest relatedRest =>
          apply AgreesOn.alike
          · rw [(leftGoes rest).1, (rightGoes rest).1, sameRest]
          · rwa [(leftGoes rest).2, (rightGoes rest).2]
        | lapsed position other cause present relatedRest stopped lapse =>
          refine .lapsed (position + 1) other cause (by simpa using present) ?_ ?_ ?_
          · rwa [List.take_succ_cons, (leftGoes _).2, (rightGoes _).2]
          · rw [(leftGoes rest).1, stopped, Nat.add_right_comm, Nat.add_assoc]
          · rwa [List.take_succ_cons, (leftGoes rest).2, (rightGoes _).2]
        | excused stopped excuse => exact .excused ((rightGoes rest).1.trans stopped) excuse
    | lapsed stopped lapse =>
      obtain ⟨cause, rfl, lapse⟩ := lapse
      have leftEnds := Replay.applyAll_cons_of_error rest stopped
      refine .lapsed 0 request cause rfl related (by simpa using leftEnds.1) ?_
      rw [leftEnds.2, List.take_succ_cons, List.take_zero, Replay.context_applyAll_singleton]
      exact lapse
    | excused stopped excuse =>
      obtain ⟨cause, -, excuse⟩ := excuse
      exact .excused (Replay.applyAll_cons_of_error rest stopped).1 excuse

theorem later_partway (script : Script) (options : Options) {count more : Nat} (fewer : count ≤ more) :
    comparison.Later (script.partway options count).context (script.partway options more).context := by
  obtain ⟨others, rfl⟩ := Nat.exists_eq_add_of_le fewer
  rw [Script.partway, Script.partway, List.take_add]
  exact comparison.later_applyAll_append 0 _ _ _

end EmissionComparison

end MipsBackend
