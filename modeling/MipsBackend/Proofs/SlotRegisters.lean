import MipsBackend.Proofs.DirectEmission
import MipsBackend.Proofs.RegisterLedger

/-! # Slots and the registers they hold

A script names registers by slots, and the pool keeps its own account of what is handed out.

* `Replay.SlotChange`, `Replay.apply_slotChange`: all that a request does to slots and registers.
* `Names.Holds`: the slots hold exactly the busy registers, each of them once.
* `Names.Holds.applyAll`: requests keep it so.
-/

namespace MipsBackend

/-! ## Bindings -/

namespace Bindings

variable {α : Type} {bindings : Bindings α} {name other : String} {value : α}

theorem get?_bind : (bindings.bind name value).get? other = if other = name then some value else bindings.get? other := by
  by_cases same : other = name
  · simp [get?, Bindings.bind, same]
  · have apart : (other == name) = false := by simpa using same
    simp [get?, Bindings.bind, List.lookup_cons, same, apart]

theorem get?_unbind : (bindings.unbind name).get? other = if other = name then none else bindings.get? other := by
  induction bindings with
  | nil => simp [get?, unbind]
  | cons binding rest ih =>
    obtain ⟨key, held⟩ := binding
    simp only [get?, unbind, List.filter_cons, List.lookup_cons] at ih ⊢
    by_cases dropped : key = name
    · subst dropped
      by_cases same : other = key
      · simpa [same] using ih
      · have apart : (other == key) = false := by simpa using same
        simpa [same, apart] using ih
    · by_cases same : other = key
      · simp [same, dropped]
      · have apart : (other == key) = false := by simpa using same
        simpa [List.lookup_cons, dropped, apart] using ih

theorem mem_of_get? (found : bindings.get? name = some value) : (name, value) ∈ bindings := by
  obtain ⟨before, behind, rfl, _⟩ := List.lookup_eq_some_iff.mp found
  simp

theorem get?_of_mem (distinct : (bindings.map Prod.fst).Nodup) (member : (name, value) ∈ bindings) :
    bindings.get? name = some value := by
  cases found : bindings.get? name with
  | none =>
    have absent := List.lookup_eq_none_iff.mp found _ member
    simp at absent
  | some other =>
    have same := List.inj_on_of_nodup_map distinct (mem_of_get? found) member rfl
    cases same
    rfl

theorem get?_eq_some_iff (distinct : (bindings.map Prod.fst).Nodup) :
    bindings.get? name = some value ↔ (name, value) ∈ bindings :=
  ⟨mem_of_get?, get?_of_mem distinct⟩

theorem not_mem_of_get? (absent : bindings.get? name = none) : name ∉ bindings.map Prod.fst := by
  intro member
  obtain ⟨binding, inside, rfl⟩ := List.mem_map.mp member
  have differs := List.lookup_eq_none_iff.mp absent _ inside
  simp at differs

/-- Unbinding a name takes out its binding and no other. -/
theorem perm_unbind (distinct : (bindings.map Prod.fst).Nodup) (found : bindings.get? name = some value) :
    bindings.Perm ((name, value) :: bindings.unbind name) := by
  have gone : (name, value) ∉ bindings.unbind name := by simp [unbind]
  have whole : bindings.Nodup := List.Nodup.of_map _ distinct
  rw [List.perm_ext_iff_of_nodup whole (List.nodup_cons.mpr ⟨gone, whole.filter _⟩)]
  intro binding
  rw [List.mem_cons, unbind, List.mem_filter, bne_iff_ne]
  constructor
  · intro member
    by_cases same : binding.1 = name
    · exact .inl (List.inj_on_of_nodup_map distinct member (mem_of_get? found) same)
    · exact .inr ⟨member, same⟩
  · rintro (rfl | ⟨member, _⟩)
    · exact mem_of_get? found
    · exact member

end Bindings

/-! ## What a request does to slots and registers -/

theorem Names.freeTask_eq_ok_iff {names : Names} {index : Nat} {name : String} {task : Task} :
    names.freeTask index name = .ok task ↔
      ∃ reg, names.register index name = .ok reg ∧ (Reg.hasSigil name = true → names.holder? reg = none) ∧
        task = .freeSlot name reg := by
  rw [Names.freeTask, exceptBind_eq_ok_iff]
  refine exists_congr fun reg => and_congr_right fun _ => ?_
  cases sigil : Reg.hasSigil name
  · simp [eq_comm]
  · cases names.holder? reg <;> simp [eq_comm]

/-- Only requests of two kinds come to tasks that move registers. -/
theorem Names.resolve_cases {names : Names} {index : Nat} {request : Request} {task : Task}
    (resolves : names.resolve index request = .ok task) :
    (∃ name, request = .alloc name ∧ names.slots.get? name = none ∧ task = .bindSlot name) ∨
    (∃ name reg, request = .free name ∧ names.freeTask index name = .ok (.freeSlot name reg) ∧
      task = .freeSlot name reg) ∨
    (∀ name, request ≠ .alloc name ∧ request ≠ .free name) ∧
      ((∃ name, task = .bindLabel name) ∨ ∃ step, task = .step step) := by
  cases request with
  | alloc name =>
    simp only [Names.resolve] at resolves
    split at resolves
    next => cases resolves
    next absent =>
      cases resolves
      exact .inl ⟨name, rfl, by simpa using absent, rfl⟩
  | free name =>
    obtain ⟨reg, _, _, rfl⟩ := Names.freeTask_eq_ok_iff.mp resolves
    exact .inr (.inl ⟨name, reg, rfl, resolves, rfl⟩)
  | label name =>
    cases resolves
    exact .inr (.inr ⟨by simp, .inl ⟨name, rfl⟩⟩)
  | _ =>
    refine .inr (.inr ⟨by simp, .inr ?_⟩)
    simp only [Names.resolve, exceptBind_eq_ok_iff, Except.ok.injEq] at resolves
    grind

theorem Direct.pool_of_step {direct next : Direct} {step : Step} {operations : List Operation}
    (steps : direct.step step = some (operations, next)) : next.pool = direct.pool := by
  cases step <;> simp only [Direct.step] at steps <;> grind [Direct.twoLabels, Direct.opening]

/-- The registers are no business of code generation: its steps leave the pool alone. -/
theorem Step.pool_of_yields {step : Step} {context after : Context} {answer : Answer}
    (scripted : step.isScripted = true) (yields : step.perform.Yields context answer after) :
    after.pool = context.pool := by
  have tracks : context.Tracks ⟨{}, context.pool, context.labels, context.outline⟩ := ⟨rfl, rfl, rfl⟩
  obtain ⟨operations, next, steps, _, adds⟩ := tracks.step scripted yields
  exact adds.tracks.pool.trans (Direct.pool_of_step steps)

namespace Replay

/-- All that a request does to slots and registers. -/
inductive SlotChange (index : Nat) (before after : Replay) : Request → Prop
  | bound {name : String} {reg : Reg} :
      before.names.slots.get? name = none →
      RegisterPool.allocate.Yields before.context.pool reg after.context.pool →
      after.names.slots = before.names.slots.bind name reg → SlotChange index before after (.alloc name)
  | freed {name : String} {reg : Reg} :
      before.names.freeTask index name = .ok (.freeSlot name reg) →
      (RegisterPool.free reg).Yields before.context.pool () after.context.pool →
      after.names.slots = before.names.slots.unbind name → SlotChange index before after (.free name)
  | kept {request : Request} :
      (∀ name, request ≠ .alloc name ∧ request ≠ .free name) → after.names.slots = before.names.slots →
      after.context.pool = before.context.pool → SlotChange index before after request

variable {replay after : Replay} {index : Nat} {request : Request} {value : Unit}

theorem apply_slotChange (yields : (apply index request).Yields replay value after) :
    SlotChange index replay after request := by
  simp only [Replay.apply, Action.yields_bind_iff, Action.yields_read_iff, Action.yields_ofExcept_iff,
    Action.yields_mapError_iff] at yields
  obtain ⟨_, _, ⟨rfl, rfl⟩, task, _, ⟨resolves, rfl⟩, performs⟩ := yields
  obtain ⟨name, rfl, absent, rfl⟩ | ⟨name, reg, rfl, frees, rfl⟩ | ⟨other, ⟨name, rfl⟩ | ⟨step, rfl⟩⟩ :=
    Names.resolve_cases resolves
  · simp only [Replay.perform, Action.yields_bind_iff, yields_onContext_iff, Emission.alloc,
      Action.yields_reportingFailure_iff, Emission.yields_onPool_iff, Action.yields_update_iff] at performs
    obtain ⟨reg, _, ⟨_, ⟨pool, allocates, rfl⟩, rfl⟩, rfl⟩ := performs
    exact .bound absent allocates rfl
  · simp only [Replay.perform, Action.yields_bind_iff, yields_onContext_iff, Emission.free,
      Emission.yields_onPool_iff, Action.yields_update_iff] at performs
    obtain ⟨_, _, ⟨_, ⟨pool, releases, rfl⟩, rfl⟩, rfl⟩ := performs
    exact .freed frees releases rfl
  · simp only [Replay.perform, Action.yields_bind_iff, yields_onContext_iff, Emission.newLabel_yields_iff,
      Action.yields_update_iff] at performs
    obtain ⟨_, _, ⟨_, ⟨rfl, rfl⟩, rfl⟩, rfl⟩ := performs
    exact .kept other rfl rfl
  · simp only [Replay.perform, Action.yields_bind_iff, yields_onContext_iff, Action.yields_pure_iff] at performs
    obtain ⟨_, _, ⟨_, steps, rfl⟩, _, rfl⟩ := performs
    exact .kept other rfl (Step.pool_of_yields (Names.resolve_step resolves) steps)

/-- What every request keeps true of names and context, a run of requests keeps true. -/
theorem applyAll_keeps {motive : Names → Context → Prop} {requests : List Request}
    (each : ∀ index before after, ∀ request ∈ requests, motive before.names before.context →
      (apply index request).Yields before () after → motive after.names after.context)
    (yields : (applyAll index requests).Yields replay value after) (holds : motive replay.names replay.context) :
    motive after.names after.context := by
  induction requests generalizing index replay with
  | nil =>
    obtain ⟨_, rfl⟩ := Action.yields_pure_iff.mp yields
    exact holds
  | cons request rest ih =>
    obtain ⟨middle, applies, others⟩ := applyAll_cons_yields yields
    have kept : motive middle.names middle.context :=
      each index replay middle request List.mem_cons_self holds applies
    -- Counting a request touches neither names nor context.
    refine ih ?_ others kept
    intro index before after request member
    exact each index before after request (List.mem_cons_of_mem _ member)

end Replay

/-! ## When slots are bound and freed -/

namespace Replay

variable {replay after : Replay} {index : Nat} {request : Request} {name : String} {reg : Reg}

theorem apply_of_perform {task : Task} (resolves : replay.names.resolve index request = .ok task)
    (performs : (perform task).Yields replay () after) : (apply index request).Yields replay () after := by
  refine Action.yields_bind_iff.mpr ⟨replay, replay, Action.yields_read_iff.mpr ⟨rfl, rfl⟩, ?_⟩
  refine Action.yields_bind_iff.mpr ⟨task, replay, Action.yields_ofExcept_iff.mpr ⟨resolves, rfl⟩, ?_⟩
  exact Action.yields_mapError_iff.mpr performs

theorem apply_of_refused {task : Task} {cause : EmitError} (resolves : replay.names.resolve index request = .ok task)
    (refuses : (perform task).Stops replay cause after) :
    (apply index request).Stops replay (.emission index request.name cause) after := by
  refine Action.stops_bind_iff.mpr (.inr ⟨replay, replay, Action.yields_read_iff.mpr ⟨rfl, rfl⟩, ?_⟩)
  refine Action.stops_bind_iff.mpr (.inr ⟨task, replay, Action.yields_ofExcept_iff.mpr ⟨resolves, rfl⟩, ?_⟩)
  exact Action.stops_mapError_iff.mpr ⟨cause, refuses, rfl⟩

theorem apply_of_unresolved {error : ReplayError} (unresolved : replay.names.resolve index request = .error error) :
    (apply index request).Stops replay error replay := by
  refine Action.stops_bind_iff.mpr (.inr ⟨replay, replay, Action.yields_read_iff.mpr ⟨rfl, rfl⟩, ?_⟩)
  exact Action.stops_bind_iff.mpr (.inl (Action.stops_ofExcept_iff.mpr ⟨unresolved, rfl⟩))

theorem apply_free_of_unknown {error : ReplayError} (unknown : replay.names.register index name = .error error) :
    (apply index (.free name)).Stops replay error replay := by
  refine apply_of_unresolved ?_
  simp [Names.resolve, Names.freeTask, unknown, bind, Except.bind]

theorem perform_freeSlot_of_busy (busy : reg ∈ replay.context.pool.busy) :
    (perform (.freeSlot name reg)).Yields replay ()
      { replay with
        context := { replay.context with pool := replay.context.pool.returning reg }
        names := replay.names.unbindSlot name } := by
  have frees : (Emission.free reg).Yields replay.context () _ :=
    Emission.yields_onPool_iff.mpr ⟨_, RegisterPool.free_yields_iff.mpr ⟨busy, rfl⟩, rfl⟩
  have frees : (onContext (Emission.free reg)).Yields replay () _ := yields_onContext_iff.mpr ⟨_, frees, rfl⟩
  exact Action.yields_bind_iff.mpr ⟨(), _, frees, Action.yields_update_iff.mpr rfl⟩

theorem perform_freeSlot_of_idle (name : String) (idle : reg ∉ replay.context.pool.busy) :
    ∃ cause, (cause = .notAllocatable reg ∨ cause = .notAllocated reg) ∧
      (perform (.freeSlot name reg)).Stops replay cause replay := by
  have refused (cause : EmitError) (stops : (RegisterPool.free reg).Stops replay.context.pool cause replay.context.pool) :
      (perform (.freeSlot name reg)).Stops replay cause replay := by
    refine Action.stops_bind_iff.mpr (.inl (stops_onContext_iff.mpr ⟨replay.context, ?_, rfl⟩))
    exact Action.stops_focus_iff.mpr ⟨_, stops, rfl⟩
  cases scratch : reg.isAllocatable with
  | false => exact ⟨_, .inl rfl, refused _ (RegisterPool.free_stops_iff.mpr ⟨rfl, by simp [scratch]⟩)⟩
  | true =>
    have isFree : replay.context.pool.isFree reg = true := by simpa [RegisterPool.mem_busy, scratch] using idle
    exact ⟨_, .inr rfl, refused _ (RegisterPool.free_stops_iff.mpr ⟨rfl, by simp [scratch, isFree]⟩)⟩

theorem perform_bindSlot_of_available (name : String) (wellFormed : replay.context.pool.WellFormed)
    (left : 0 < replay.context.pool.available) : ∃ after, (perform (.bindSlot name)).Yields replay () after := by
  obtain ⟨reg, allocates⟩ := RegisterPool.allocate_of_available wellFormed left
  have allots : Emission.alloc.Yields replay.context reg _ :=
    Action.yields_reportingFailure_iff.mpr (Emission.yields_onPool_iff.mpr ⟨_, allocates, rfl⟩)
  have allots : (onContext Emission.alloc).Yields replay reg _ := yields_onContext_iff.mpr ⟨_, allots, rfl⟩
  exact ⟨_, Action.yields_bind_iff.mpr ⟨reg, _, allots, Action.yields_update_iff.mpr rfl⟩⟩

theorem perform_bindSlot_of_exhausted (exhausted : replay.context.pool.available = 0) :
    (perform (.bindSlot name)).Stops replay .outOfRegisters replay := by
  refine Action.stops_bind_iff.mpr (.inl (stops_onContext_iff.mpr ⟨replay.context, ?_, rfl⟩))
  refine Action.stops_reportingFailure_iff.mpr (Action.stops_focus_iff.mpr ⟨_, ?_, rfl⟩)
  exact RegisterPool.allocate_of_exhausted exhausted

end Replay

/-! ## Slots hold exactly the busy registers -/

theorem Names.register_eq_ok_iff {names : Names} {index : Nat} {name : String} {reg : Reg} :
    names.register index name = .ok reg ↔
      (if Reg.hasSigil name then Reg.ofName? name else names.slots.get? name) = some reg := by
  unfold Names.register
  split
  next found named => simp [named]
  next unknown => simp [unknown]

/-- Every slot has a register of its own, and the slots together hold the registers that are handed out. -/
structure Names.Holds (names : Names) (pool : RegisterPool) : Prop where
  wellFormed : pool.WellFormed
  distinct : (names.slots.map Prod.fst).Nodup
  held : (names.slots.map Prod.snd).Perm pool.busy

namespace Names.Holds

variable {names : Names} {pool : RegisterPool} {name other : String} {reg : Reg}

theorem nothing : ({} : Names).Holds .fresh where
  wellFormed := RegisterPool.wellFormed_fresh
  distinct := List.nodup_nil
  held := by decide

theorem mem_busy_iff (holds : names.Holds pool) :
    reg ∈ pool.busy ↔ ∃ name, names.slots.get? name = some reg := by
  rw [← holds.held.mem_iff, List.mem_map]
  constructor
  · rintro ⟨⟨name, held⟩, member, rfl⟩
    exact ⟨name, Bindings.get?_of_mem holds.distinct member⟩
  · rintro ⟨name, found⟩
    exact ⟨(name, reg), Bindings.mem_of_get? found, rfl⟩

theorem slot_unique (holds : names.Holds pool) (first : names.slots.get? name = some reg)
    (second : names.slots.get? other = some reg) : name = other := by
  have apart : (names.slots.map Prod.snd).Nodup := holds.held.nodup_iff.mpr pool.nodup_busy
  have same :=
    List.inj_on_of_nodup_map apart (Bindings.mem_of_get? first) (Bindings.mem_of_get? second) rfl
  exact congrArg Prod.fst same

theorem counted (holds : names.Holds pool) : pool.available + names.slots.length = 18 := by
  have length := holds.held.length_eq
  rw [List.length_map] at length
  rw [length, ← Reg.length_allocatable]
  exact holds.wellFormed.counted

theorem holder?_eq_some_iff (holds : names.Holds pool) :
    names.holder? reg = some name ↔ names.slots.get? name = some reg := by
  simp only [Names.holder?, Option.map_eq_some_iff]
  constructor
  · rintro ⟨⟨slot, held⟩, found, rfl⟩
    obtain rfl : held = reg := by simpa using List.find?_some found
    exact Bindings.get?_of_mem holds.distinct (List.mem_of_find?_eq_some found)
  · intro bound
    cases found : List.find? (fun binding => binding.2 == reg) names.slots with
    | none =>
      have absent := List.find?_eq_none.mp found _ (Bindings.mem_of_get? bound)
      simp at absent
    | some binding =>
      obtain ⟨slot, held⟩ := binding
      obtain rfl : held = reg := by simpa using List.find?_some found
      have named := Bindings.get?_of_mem holds.distinct (List.mem_of_find?_eq_some found)
      exact ⟨(slot, held), rfl, holds.slot_unique named bound⟩

/-- Only through its slot can a register be given back. -/
theorem bare_of_freed (holds : names.Holds pool) {index : Nat}
    (frees : names.freeTask index name = .ok (.freeSlot name reg)) (busy : reg ∈ pool.busy) :
    Reg.hasSigil name = false ∧ names.slots.get? name = some reg := by
  obtain ⟨reg, named, unheld, same⟩ := Names.freeTask_eq_ok_iff.mp frees
  cases same
  rw [Names.register_eq_ok_iff] at named
  cases sigil : Reg.hasSigil name with
  | false => simpa [sigil] using named
  | true =>
    -- A busy register has a holder, and then its own name is refused.
    obtain ⟨slot, bound⟩ := holds.mem_busy_iff.mp busy
    have holder := holds.holder?_eq_some_iff.mpr bound
    rw [unheld sigil] at holder
    cases holder

/-- One request keeps slots and registers together. -/
theorem change {index : Nat} {before after : Replay} {request : Request}
    (holds : before.names.Holds before.context.pool) (change : Replay.SlotChange index before after request) :
    after.names.Holds after.context.pool := by
  cases change with
  | bound absent allocates slots =>
    obtain ⟨left, free, taken⟩ := RegisterPool.allocate_yields allocates
    rw [taken]
    refine ⟨holds.wellFormed.taking free left, ?_, ?_⟩
    · rw [slots]
      exact List.nodup_cons.mpr ⟨Bindings.not_mem_of_get? absent, holds.distinct⟩
    · rw [slots]
      have grown := RegisterPool.busy_taking (holds.wellFormed.scratch _ free) free
      exact (holds.held.cons _).trans grown.symm
  | freed frees releases slots =>
    obtain ⟨busy, returned⟩ := RegisterPool.free_yields_iff.mp releases
    obtain ⟨_, found⟩ := holds.bare_of_freed frees busy
    rw [returned]
    have fewer := Bindings.perm_unbind holds.distinct found
    refine ⟨holds.wellFormed.returning busy, ?_, ?_⟩
    · rw [slots]
      have names := (fewer.map Prod.fst).nodup_iff.mp holds.distinct
      exact (List.nodup_cons.mp names).2
    · rw [slots]
      have registers := (fewer.map Prod.snd).symm.trans (holds.held.trans (RegisterPool.busy_returning busy))
      exact registers.cons_inv
  | kept _ slots pool =>
    rw [pool]
    exact ⟨holds.wellFormed, slots ▸ holds.distinct, slots ▸ holds.held⟩

/-- Requests keep slots and registers together. -/
theorem applyAll {index : Nat} {requests : List Request} {before after : Replay} {value : Unit}
    (holds : before.names.Holds before.context.pool)
    (yields : (Replay.applyAll index requests).Yields before value after) : after.names.Holds after.context.pool := by
  refine Replay.applyAll_keeps (motive := fun names context => names.Holds context.pool) ?_ yields holds
  intro index before after request _ holds applies
  exact holds.change (Replay.apply_slotChange applies)

/-! ## What a script can count on -/

theorem register_of_bare (holds : names.Holds pool) (index : Nat) (bare : Reg.hasSigil name = false) :
    names.register index name = .error (.unknownRegister index name) ∨
      ∃ reg ∈ pool.busy, names.register index name = .ok reg := by
  cases bound : names.slots.get? name with
  | none => exact .inl (by simp [Names.register, bare, bound])
  | some reg =>
    exact .inr ⟨reg, holds.mem_busy_iff.mpr ⟨name, bound⟩, by simp [Names.register, bare, bound]⟩

theorem apply_free_of_bare {replay : Replay} (holds : replay.names.Holds replay.context.pool) (index : Nat)
    (bare : Reg.hasSigil name = false) (bound : replay.names.slots.get? name = some reg) :
    (Replay.apply index (.free name)).Yields replay ()
      { replay with
        context := { replay.context with pool := replay.context.pool.returning reg }
        names := replay.names.unbindSlot name } := by
  have named : replay.names.register index name = .ok reg := by simp [Names.register, bare, bound]
  have frees : replay.names.freeTask index name = .ok (.freeSlot name reg) :=
    Names.freeTask_eq_ok_iff.mpr ⟨reg, named, by simp [bare], rfl⟩
  exact Replay.apply_of_perform frees (Replay.perform_freeSlot_of_busy (holds.mem_busy_iff.mpr ⟨name, bound⟩))

/-- A register is never given back under its own name: either a slot holds it, or it is not handed out. -/
theorem apply_free_of_sigil {replay : Replay} (holds : replay.names.Holds replay.context.pool) (index : Nat)
    (sigil : Reg.hasSigil name = true) :
    (Replay.apply index (.free name)).Stops replay (.unknownRegister index name) replay ∨
    (∃ slot reg, Reg.ofName? name = some reg ∧ replay.names.slots.get? slot = some reg ∧
      (Replay.apply index (.free name)).Stops replay (.registerHeld index name slot) replay) ∨
    ∃ reg cause, (cause = .notAllocatable reg ∨ cause = .notAllocated reg) ∧
      (Replay.apply index (.free name)).Stops replay (.emission index "free" cause) replay := by
  cases fixed : Reg.ofName? name with
  | none =>
    have unknown : replay.names.register index name = .error (.unknownRegister index name) := by
      simp [Names.register, sigil, fixed]
    exact .inl (Replay.apply_free_of_unknown unknown)
  | some reg =>
    have named : replay.names.register index name = .ok reg := by simp [Names.register, sigil, fixed]
    cases holder : replay.names.holder? reg with
    | some slot =>
      refine .inr (.inl ⟨slot, reg, rfl, holds.holder?_eq_some_iff.mp holder, Replay.apply_of_unresolved ?_⟩)
      simp [Names.resolve, Names.freeTask, named, sigil, holder, bind, Except.bind]
    | none =>
      have idle : reg ∉ replay.context.pool.busy := by
        intro busy
        obtain ⟨slot, bound⟩ := holds.mem_busy_iff.mp busy
        rw [holds.holder?_eq_some_iff.mpr bound] at holder
        cases holder
      have frees : replay.names.freeTask index name = .ok (.freeSlot name reg) :=
        Names.freeTask_eq_ok_iff.mpr ⟨reg, named, fun _ => holder, rfl⟩
      obtain ⟨cause, which, refuses⟩ := Replay.perform_freeSlot_of_idle name idle
      exact .inr (.inr ⟨reg, cause, which, Replay.apply_of_refused frees refuses⟩)

/-- The slot that a refusal names is the one that holds the register. -/
theorem holder_of_refused {replay : Replay} (holds : replay.names.Holds replay.context.pool) {index : Nat}
    {slot : String} (refused : (Replay.apply index (.free name) replay).result = .error (.registerHeld index name slot)) :
    ∃ reg, Reg.ofName? name = some reg ∧ replay.names.slots.get? slot = some reg := by
  cases sigil : Reg.hasSigil name with
  | false =>
    -- Nobody is asked who holds the register of a slot.
    obtain unknown | ⟨reg, _, named⟩ := holds.register_of_bare index sigil
    · rw [(Replay.apply_free_of_unknown unknown).1] at refused
      cases refused
    · have bound : replay.names.slots.get? name = some reg := by
        simpa [sigil] using Names.register_eq_ok_iff.mp named
      rw [(holds.apply_free_of_bare index sigil bound).1] at refused
      cases refused
  | true =>
    obtain stops | ⟨holder, reg, fixed, held, stops⟩ | ⟨_, _, _, stops⟩ := holds.apply_free_of_sigil index sigil
    · rw [stops.1] at refused
      cases refused
    · rw [stops.1] at refused
      cases refused
      exact ⟨reg, fixed, held⟩
    · rw [stops.1] at refused
      cases refused

/-- The pool is exhausted exactly when every scratch register has a slot. -/
theorem apply_alloc {replay : Replay} (holds : replay.names.Holds replay.context.pool) (index : Nat)
    (unbound : replay.names.slots.get? name = none) :
    (Replay.apply index (.alloc name) replay).result =
      if replay.names.slots.length = 18 then .error (.emission index "alloc" .outOfRegisters) else .ok () := by
  have resolves : replay.names.resolve index (.alloc name) = .ok (.bindSlot name) := by
    simp [Names.resolve, unbound]
  have counted := holds.counted
  split
  next full => exact (Replay.apply_of_refused resolves (Replay.perform_bindSlot_of_exhausted (by omega))).1
  next =>
    obtain ⟨after, performs⟩ :=
      Replay.perform_bindSlot_of_available name holds.wellFormed (by omega)
    exact (Replay.apply_of_perform resolves performs).1

end Names.Holds

/-! ## Runs from the start -/

/-- A replay before its first request: no name is bound and no register is handed out. -/
structure Replay.IsFresh (replay : Replay) : Prop where
  names : replay.names = {}
  pool : replay.context.pool = .fresh

theorem Replay.IsFresh.holds {replay : Replay} (fresh : replay.IsFresh) : replay.names.Holds replay.context.pool := by
  rw [fresh.names, fresh.pool]
  exact Names.Holds.nothing

/-- Which slot holds a register does not depend on the order in which slots are looked through. -/
theorem Names.Holds.holder?_perm {names : Names} {pool : RegisterPool} (holds : names.Holds pool)
    {slots : Bindings Reg} (reordered : slots.Perm names.slots) (reg : Reg) :
    { names with slots }.holder? reg = names.holder? reg := by
  have others : { names with slots }.Holds pool :=
    { wellFormed := holds.wellFormed
      distinct := (reordered.map Prod.fst).nodup_iff.mpr holds.distinct
      held := (reordered.map Prod.snd).trans holds.held }
  apply Option.ext
  intro slot
  rw [others.holder?_eq_some_iff, holds.holder?_eq_some_iff, Bindings.get?_eq_some_iff others.distinct,
    Bindings.get?_eq_some_iff holds.distinct, reordered.mem_iff]

/-- Slots and busy registers correspond one to one. The last fields tell what requests can count on then. -/
structure Replay.SlotsMatch (replay : Replay) : Prop where
  injective : ∀ name other reg, replay.names.slots.get? name = some reg →
    replay.names.slots.get? other = some reg → name = other
  busy_iff : ∀ reg, reg ∈ replay.context.pool.busy ↔ ∃ name, replay.names.slots.get? name = some reg
  scratch : ∀ reg ∈ replay.context.pool.busy, reg.isAllocatable = true
  /-- No name is bound twice, so the length below is the number of bound slots. -/
  distinct : (replay.names.slots.map Prod.fst).Nodup
  counted : replay.context.pool.available + replay.names.slots.length = 18
  /-- A slot operand never denotes a register that was given back. -/
  operand : ∀ index name, Reg.hasSigil name = false →
    replay.names.register index name = .error (.unknownRegister index name) ∨
      ∃ reg ∈ replay.context.pool.busy, replay.names.register index name = .ok reg
  freeSlot : ∀ index name, Reg.hasSigil name = false → (replay.names.slots.get? name).isSome = true →
    (apply index (.free name) replay).result = .ok ()
  freeFixed : ∀ index name, Reg.hasSigil name = true →
    ∃ error, (apply index (.free name) replay).result = .error error ∧
      (error = .unknownRegister index name ∨ (∃ slot, error = .registerHeld index name slot) ∨
        ∃ reg, error = .emission index "free" (.notAllocatable reg) ∨
          error = .emission index "free" (.notAllocated reg))
  holder : ∀ index name slot, (apply index (.free name) replay).result = .error (.registerHeld index name slot) →
    ∃ reg, Reg.ofName? name = some reg ∧ ∀ other, replay.names.slots.get? other = some reg ↔ other = slot
  holderOrder : ∀ (slots : Bindings Reg) reg, slots.Perm replay.names.slots →
    { replay.names with slots }.holder? reg = replay.names.holder? reg
  alloc : ∀ index name, replay.names.slots.get? name = none →
    (apply index (.alloc name) replay).result =
      if replay.names.slots.length = 18 then .error (.emission index "alloc" .outOfRegisters) else .ok ()

/-- After any requests that were applied, slots and busy registers correspond one to one: no two slots share a
register, no operand uses a register that was given back, a register leaves the pool's account only through its
slot, and it takes a slot for every scratch register to exhaust the pool. -/
theorem Replay.slots_match_busy_registers (begun replay : Replay) (requests : List Request) (fresh : begun.IsFresh)
    (applied : (applyAll 0 requests).Yields begun () replay) : replay.SlotsMatch := by
  have holds := fresh.holds.applyAll applied
  exact
    { injective := fun name other reg first second => holds.slot_unique first second
      busy_iff := fun reg => holds.mem_busy_iff
      scratch := fun reg busy => (RegisterPool.mem_busy.mp busy).1
      distinct := holds.distinct
      counted := holds.counted
      operand := fun index name bare => holds.register_of_bare index bare
      freeSlot := by
        intro index name bare isBound
        obtain ⟨reg, bound⟩ := Option.isSome_iff_exists.mp isBound
        exact (holds.apply_free_of_bare index bare bound).1
      freeFixed := by
        intro index name sigil
        obtain stops | ⟨slot, _, _, _, stops⟩ | ⟨reg, cause, which, stops⟩ := holds.apply_free_of_sigil index sigil
        · exact ⟨_, stops.1, .inl rfl⟩
        · exact ⟨_, stops.1, .inr (.inl ⟨slot, rfl⟩)⟩
        · refine ⟨_, stops.1, .inr (.inr ⟨reg, ?_⟩)⟩
          obtain rfl | rfl := which
          · exact .inl rfl
          · exact .inr rfl
      holder := by
        intro index name slot refused
        obtain ⟨reg, fixed, held⟩ := holds.holder_of_refused refused
        refine ⟨reg, fixed, fun other => ⟨fun bound => holds.slot_unique bound held, ?_⟩⟩
        rintro rfl
        exact held
      holderOrder := fun slots reg reordered => holds.holder?_perm reordered reg
      alloc := fun index name unbound => holds.apply_alloc index unbound }

theorem Replay.slots_match_busy_registers_reused :
    (start (Context.start {} {})).IsFresh ∧
      (applyAll 0 [.alloc "a", .alloc "$s0", .free "a", .alloc "b"] (start (Context.start {} {}))).result = .ok () ∧
      (applyAll 0 [.alloc "a", .alloc "$s0", .free "a", .alloc "b"] (start (Context.start {} {}))).state.SlotsMatch := by
  have fresh : (start (Context.start {} {})).IsFresh := ⟨rfl, rfl⟩
  have applied : (applyAll 0 [.alloc "a", .alloc "$s0", .free "a", .alloc "b"]
      (start (Context.start {} {}))).result = .ok () := eq_ok_of_isOk (by decide +kernel)
  exact ⟨fresh, applied, slots_match_busy_registers _ _ _ fresh ⟨applied, rfl⟩⟩

/-! ## What a slot denotes -/

theorem Replay.SlotChange.get?_of_bound {index : Nat} {before after : Replay} {request : Request} {name : String}
    {reg : Reg} (change : SlotChange index before after request) (unfreed : request ≠ .free name)
    (bound : before.names.slots.get? name = some reg) : after.names.slots.get? name = some reg := by
  cases change with
  | @bound other _ absent _ slots =>
    have apart : name ≠ other := by
      rintro rfl
      rw [bound] at absent
      cases absent
    rw [slots, Bindings.get?_bind, if_neg apart, bound]
  | @freed other _ _ _ slots =>
    have apart : name ≠ other := by
      rintro rfl
      exact unfreed rfl
    rw [slots, Bindings.get?_unbind, if_neg apart, bound]
  | kept _ slots _ => rw [slots, bound]

/-- A slot holds the register it was bound to until it is freed. -/
theorem Replay.get?_of_allocated {index : Nat} {before now : Replay} {between : List Request} {name : String}
    {reg : Reg} (obtained : (Emission.alloc before.context).result = .ok reg)
    (applied : (applyAll index (.alloc name :: between)).Yields before () now) (unfreed : .free name ∉ between) :
    now.names.slots.get? name = some reg := by
  obtain ⟨middle, applies, others⟩ := applyAll_cons_yields applied
  have bound : middle.names.slots.get? name = some reg := by
    cases apply_slotChange applies with
    | bound _ allocates slots =>
      -- The pool answers once, so the register bound to the slot is the one obtained.
      have same : Emission.alloc.Yields before.context _ _ :=
        Action.yields_reportingFailure_iff.mpr (Emission.yields_onPool_iff.mpr ⟨_, allocates, rfl⟩)
      have result := same.1
      rw [obtained] at result
      cases result
      rw [slots, Bindings.get?_bind, if_pos rfl]
    | kept other => exact absurd rfl (other name).1
  refine applyAll_keeps (motive := fun names _ => names.slots.get? name = some reg) ?_ others bound
  intro index before after request member bound applies
  refine (apply_slotChange applies).get?_of_bound ?_ bound
  rintro rfl
  exact unfreed member

/-- A slot whose name lacks the sigil denotes the register it was bound to, and freeing it gives that register back.
A name with the sigil denotes a fixed register, whatever is bound to it, and can never be freed. -/
theorem Replay.slot_denotes_its_register (begun before now : Replay) (earlier between : List Request) (name : String)
    (reg : Reg) (fresh : begun.IsFresh) (reached : (applyAll 0 earlier).Yields begun () before)
    (obtained : (Emission.alloc before.context).result = .ok reg)
    (applied : (applyAll earlier.length (.alloc name :: between)).Yields before () now)
    (unfreed : .free name ∉ between) (index : Nat) :
    (Reg.hasSigil name = false →
      now.names.register index name = .ok reg ∧
      ∃ after, (apply index (.free name)).Yields now () after ∧
        after.context.pool = now.context.pool.returning reg ∧ after.names.slots.get? name = none) ∧
    (Reg.hasSigil name = true →
      (now.names.register index name = .ok reg ↔ Reg.ofName? name = some reg) ∧
      ∀ after, ¬ (apply index (.free name)).Yields now () after) := by
  have holds := (fresh.holds.applyAll reached).applyAll applied
  have bound := get?_of_allocated obtained applied unfreed
  constructor
  · intro bare
    refine ⟨Names.register_eq_ok_iff.mpr (by simpa [bare] using bound), _, holds.apply_free_of_bare index bare bound, rfl, ?_⟩
    simp [Names.unbindSlot, Bindings.get?_unbind]
  · intro sigil
    refine ⟨Names.register_eq_ok_iff.trans (by simp [sigil]), ?_⟩
    intro after frees
    obtain stops | ⟨_, _, _, _, stops⟩ | ⟨_, _, _, stops⟩ := holds.apply_free_of_sigil index sigil
    · exact frees.not_stops stops
    · exact frees.not_stops stops
    · exact frees.not_stops stops

theorem Replay.slot_denotes_its_register_reused :
    (start (Context.start {} {})).IsFresh ∧
      ∃ before now, (applyAll 0 [.alloc "a", .alloc "b", .free "a"]).Yields (start (Context.start {} {})) () before ∧
        (Emission.alloc before.context).result = .ok .t2 ∧
        (applyAll 3 [.alloc "r", .alloc "a", .free "b", .li "r" 1]).Yields before () now ∧
        .free "r" ∉ [Request.alloc "a", .free "b", .li "r" 1] ∧ now.names.register 7 "r" = .ok .t2 := by
  have fresh : (start (Context.start {} {})).IsFresh := ⟨rfl, rfl⟩
  have reached : (applyAll 0 [.alloc "a", .alloc "b", .free "a"]).Yields (start (Context.start {} {})) () _ :=
    ⟨eq_ok_of_isOk (by decide +kernel), rfl⟩
  have applied : (applyAll 3 [.alloc "r", .alloc "a", .free "b", .li "r" 1]).Yields
      (applyAll 0 [.alloc "a", .alloc "b", .free "a"] (start (Context.start {} {}))).state () _ :=
    ⟨eq_ok_of_isOk (by decide +kernel), rfl⟩
  have unfreed : .free "r" ∉ [Request.alloc "a", .free "b", .li "r" 1] := by decide
  have denotes := slot_denotes_its_register _ _ _ [.alloc "a", .alloc "b", .free "a"] _ "r" .t2 fresh reached rfl applied
    unfreed 7
  exact ⟨fresh, _, _, reached, rfl, applied, unfreed, (denotes.1 (by decide)).1⟩

/-- A slot can be bound under the name of a fixed register. The name goes on denoting that register, and the
one that was handed out for the slot cannot be given back. -/
theorem Replay.sigil_slot_denotes_fixed_register :
    (Emission.alloc (Context.start {} {})).result = .ok .t0 ∧
      (applyAll 0 [.alloc "$s0"] (start (Context.start {} {}))).result = .ok () ∧
      (applyAll 0 [.alloc "$s0"] (start (Context.start {} {}))).state.names.register 1 "$s0" = .ok .s0 ∧
      (apply 1 (.free "$s0") (applyAll 0 [.alloc "$s0"] (start (Context.start {} {}))).state).result =
        .error (.emission 1 "free" (.notAllocated .s0)) := by
  exact ⟨rfl, rfl, rfl, rfl⟩

end MipsBackend
