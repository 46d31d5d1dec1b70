import Mathlib.Data.Finset.Card
import MipsBackend.Proofs.RegisterLedger

/-! # The pool and a ledger

Whoever asks a pool for registers can keep a ledger of those handed out, from the answers alone. The pool keeps
flags, a count and a place to search from instead, and after any history these say what the ledger says.

* `PoolStep`, `RegisterPool.after`: everything that can be done with a pool, one step after the other.
* `PoolStep.record`, `RegisterPool.ledger`: the ledger that the answers make.
* `RegisterPool.KeepsLedger`: what the pool shows and answers, told by the ledger.
* `RegisterPool.Tallies.perform`: each step keeps the two together, a failed step included.
-/

namespace MipsBackend

/-! ## Using a pool -/

inductive PoolStep
  | allocate
  | free (reg : Reg)
  | reset

namespace PoolStep

/-- A step answers with the register it handed out, if that is what it does. -/
def perform : PoolStep → Action EmitError RegisterPool (Option Reg)
  | allocate => some <$> RegisterPool.allocate
  | free reg => (fun _ => none) <$> RegisterPool.free reg
  | reset => (fun _ => none) <$> Action.update fun _ => .fresh

/-- The ledger after an answer. What fails leaves no entry. -/
def record (ledger : Finset Reg) : PoolStep → Except EmitError (Option Reg) → Finset Reg
  | allocate, .ok (some reg) => insert reg ledger
  | free reg, .ok _ => ledger.erase reg
  | reset, _ => ∅
  | _, _ => ledger

end PoolStep

namespace RegisterPool

/-- What is left of a pool when steps were performed, whether they succeeded or failed. -/
def after (pool : RegisterPool) : List PoolStep → RegisterPool
  | [] => pool
  | step :: rest => (step.perform pool).state.after rest

/-- The answers to steps, one after the other. -/
def answers (pool : RegisterPool) : List PoolStep → List (PoolStep × Except EmitError (Option Reg))
  | [] => []
  | step :: rest => (step, (step.perform pool).result) :: (step.perform pool).state.answers rest

/-- The registers handed out and not given back since the last reset, by the answers to steps on a fresh pool. -/
def ledger (steps : List PoolStep) : Finset Reg :=
  (fresh.answers steps).foldl (fun ledger entry => entry.1.record ledger entry.2) ∅

variable {pool : RegisterPool} {ledger : Finset Reg} {reg : Reg}

/-! ## Flags and counts -/

theorem toList_flags (pool : RegisterPool) : pool.flags.toList = Reg.all.map pool.isFree := by
  have numbered : ∀ index : Fin 32, (Reg.all[index]).index = index := by decide
  apply List.ext_getElem
  · rw [Vector.length_toList, List.length_map]
    rfl
  · intro index bound _
    rw [Vector.length_toList] at bound
    rw [List.getElem_map]
    exact congrArg pool.flags.get (numbered ⟨index, bound⟩).symm

theorem length_filter_isFree (pool : RegisterPool) :
    (Reg.allocatable.filter pool.isFree).length + pool.outstanding = 18 := by
  have split := List.length_eq_countP_add_countP pool.isFree (l := Reg.allocatable)
  rw [Reg.length_allocatable] at split
  simpa [outstanding, busy, List.countP_eq_length_filter] using split.symm

theorem WellFormed.available_eq_length (wellFormed : pool.WellFormed) :
    pool.available = (Reg.allocatable.filter pool.isFree).length := by
  have counted := wellFormed.counted
  have split := pool.length_filter_isFree
  rw [Reg.length_allocatable] at counted
  omega

/-- The flags alone tell how many registers are left. -/
theorem WellFormed.available_eq (wellFormed : pool.WellFormed) : pool.available = pool.flags.toList.count true := by
  have scratchOnly : Reg.allocatable.filter pool.isFree = Reg.all.filter pool.isFree := by
    rw [Reg.allocatable, List.filter_filter]
    apply List.filter_congr
    intro reg _
    cases free : pool.isFree reg with
    | false => rfl
    | true => simp [wellFormed.scratch reg free]
  rw [wellFormed.available_eq_length, scratchOnly, toList_flags, ← List.countP_eq_length_filter, List.count,
    List.countP_map]
  apply List.countP_congr
  simp

/-! ## The ledger kept along -/

/-- The pool is in order, and the ledger has the registers that are busy. -/
structure Tallies (pool : RegisterPool) (ledger : Finset Reg) : Prop where
  wellFormed : pool.WellFormed
  mem_iff : ∀ reg, reg ∈ pool.busy ↔ reg ∈ ledger

theorem allocate_stops {error : EmitError} {after : RegisterPool} (stops : allocate.Stops pool error after) :
    error = .outOfRegisters ∧ after = pool := by
  obtain ⟨result, rfl⟩ := stops
  unfold allocate at result ⊢
  split
  next exhausted => simp_all
  next left =>
    rw [if_neg left] at result
    split
    next => simp_all
    next found search => simp [search] at result

namespace Tallies

theorem fresh : RegisterPool.fresh.Tallies ∅ where
  wellFormed := wellFormed_fresh
  mem_iff := by
    intro reg
    cases reg <;> decide

theorem outstanding_eq (tallies : pool.Tallies ledger) : pool.outstanding = ledger.card := by
  have same : pool.busy.toFinset = ledger := by
    ext reg
    rw [List.mem_toFinset, tallies.mem_iff]
  rw [← same, List.toFinset_card_of_nodup pool.nodup_busy]
  rfl

theorem counted (tallies : pool.Tallies ledger) : pool.available + ledger.card = 18 := by
  rw [← tallies.outstanding_eq, ← Reg.length_allocatable]
  exact tallies.wellFormed.counted

theorem taking (tallies : pool.Tallies ledger) (free : pool.isFree reg = true) (left : 0 < pool.available) :
    (pool.taking reg).Tallies (insert reg ledger) where
  wellFormed := tallies.wellFormed.taking free left
  mem_iff := by
    intro other
    have scratch := tallies.wellFormed.scratch reg free
    rw [(busy_taking scratch free).mem_iff, List.mem_cons, Finset.mem_insert, tallies.mem_iff]

theorem returning (tallies : pool.Tallies ledger) (held : reg ∈ pool.busy) :
    (pool.returning reg).Tallies (ledger.erase reg) where
  wellFormed := tallies.wellFormed.returning held
  mem_iff := by
    intro other
    have gone : reg ∉ (pool.returning reg).busy := by simp [RegisterPool.mem_busy, isFree_returning]
    rw [Finset.mem_erase, ← tallies.mem_iff, (busy_returning held).mem_iff, List.mem_cons]
    constructor
    · intro busy
      exact ⟨by rintro rfl; exact gone busy, .inr busy⟩
    · rintro ⟨apart, same | busy⟩
      · exact absurd same apart
      · exact busy

end Tallies

/-- A step that fails changes nothing. -/
theorem perform_of_error {step : PoolStep} {error : EmitError} (failed : (step.perform pool).result = .error error) :
    (step.perform pool).state = pool := by
  have stops : step.perform.Stops pool error _ := ⟨failed, rfl⟩
  cases step with
  | allocate => exact (allocate_stops (Action.stops_map_iff.mp stops)).2
  | free reg => exact (free_stops_iff.mp (Action.stops_map_iff.mp stops)).1
  | reset => cases failed

theorem record_of_error (step : PoolStep) (error : EmitError) (goesOn : step ≠ .reset) :
    step.record ledger (.error error) = ledger := by
  cases step with
  | allocate | free _ => rfl
  | reset => exact absurd rfl goesOn

/-- A step and its entry in the ledger keep pool and ledger together. -/
theorem Tallies.perform (tallies : pool.Tallies ledger) (step : PoolStep) :
    (step.perform pool).state.Tallies (step.record ledger (step.perform pool).result) := by
  obtain ⟨answer, next, yields⟩ | ⟨error, next, stops⟩ := step.perform.yields_or_stops pool
  · rw [yields.1, yields.2]
    cases step with
    | allocate =>
      obtain ⟨reg, allocates, rfl⟩ := Action.yields_map_iff.mp yields
      obtain ⟨left, free, rfl⟩ := allocate_yields allocates
      exact tallies.taking free left
    | free reg =>
      obtain ⟨_, frees, rfl⟩ := Action.yields_map_iff.mp yields
      obtain ⟨held, rfl⟩ := free_yields_iff.mp frees
      exact tallies.returning held
    | reset =>
      obtain ⟨_, resets, rfl⟩ := Action.yields_map_iff.mp yields
      obtain rfl := Action.yields_update_iff.mp resets
      exact .fresh
  · have goesOn : step ≠ .reset := by
      rintro rfl
      cases stops.1
    rw [perform_of_error stops.1, stops.1, record_of_error step error goesOn]
    exact tallies

theorem Tallies.after (tallies : pool.Tallies ledger) (steps : List PoolStep) :
    (pool.after steps).Tallies
      ((pool.answers steps).foldl (fun ledger entry => entry.1.record ledger entry.2) ledger) := by
  induction steps generalizing pool ledger with
  | nil => exact tallies
  | cons step rest ih => exact ih (tallies.perform step)

/-! ## What the pool shows and answers -/

/-- What a pool shows and answers, told by a ledger of the registers it has handed out. -/
structure KeepsLedger (pool : RegisterPool) (ledger : Finset Reg) : Prop where
  /-- The busy registers are those in the ledger, in the order of their numbers. -/
  busy_iff : ∀ reg, reg ∈ pool.busy ↔ reg ∈ ledger
  ordered : pool.busy.Pairwise fun first second => first.index < second.index
  counted : pool.available + pool.outstanding = 18
  available_eq : pool.available = pool.flags.toList.count true
  reserved : ∀ reg, reg.isAllocatable = false → pool.isFree reg = false
  cursor : 8 ≤ pool.cursor.index.val ∧ pool.cursor.index.val ≤ 25
  exhausted : (allocate pool).result = .error .outOfRegisters ↔ ledger.card = 18
  allocates : ledger.card ≠ 18 →
    ∃ reg, (allocate pool).result = .ok reg ∧ reg.isAllocatable = true ∧ reg ∉ ledger
  /-- While the count says that a register is left, the search for it does not come to nothing. -/
  found : pool.available ≠ 0 → pool.firstFree Reg.allocatable.length pool.cursor ≠ none
  frees : ∀ reg, (free reg pool).result = .ok () ↔ reg ∈ ledger
  notAllocatable : ∀ reg, (free reg pool).result = .error (.notAllocatable reg) ↔ reg.isAllocatable = false
  notAllocated : ∀ reg, (free reg pool).result = .error (.notAllocated reg) ↔
    reg.isAllocatable = true ∧ reg ∉ ledger
  /-- What fails changes nothing, not even the place to search from. -/
  failed : ∀ (step : PoolStep) error, (step.perform pool).result = .error error → (step.perform pool).state = pool

theorem Tallies.allocates (tallies : pool.Tallies ledger) (left : ledger.card ≠ 18) :
    ∃ reg, allocate.Yields pool reg (pool.taking reg) ∧ reg.isAllocatable = true ∧ reg ∉ ledger := by
  have counted := tallies.counted
  obtain ⟨reg, yields⟩ := allocate_of_available tallies.wellFormed (show 0 < pool.available by omega)
  have free := (allocate_yields yields).2.1
  refine ⟨reg, yields, tallies.wellFormed.scratch reg free, ?_⟩
  simp [← tallies.mem_iff, RegisterPool.mem_busy, free]

/-- Whether a register can be given back is told by the ledger, and so is why not. -/
theorem Tallies.result_free (tallies : pool.Tallies ledger) (reg : Reg) :
    (free reg pool).result =
      if reg ∈ ledger then .ok ()
      else if reg.isAllocatable then .error (.notAllocated reg) else .error (.notAllocatable reg) := by
  by_cases held : reg ∈ ledger
  · rw [if_pos held]
    exact (free_yields_iff.mpr ⟨(tallies.mem_iff reg).mpr held, rfl⟩).1
  · have idle : reg ∉ pool.busy := mt (tallies.mem_iff reg).mp held
    rw [if_neg held]
    cases scratch : reg.isAllocatable with
    | false => exact (free_stops_iff.mpr ⟨rfl, by simp [scratch]⟩).1
    | true =>
      have isFree : pool.isFree reg = true := by simpa [RegisterPool.mem_busy, scratch] using idle
      exact (free_stops_iff.mpr ⟨rfl, by simp [scratch, isFree]⟩).1

theorem Tallies.scratch_of_mem (tallies : pool.Tallies ledger) (held : reg ∈ ledger) : reg.isAllocatable = true :=
  (RegisterPool.mem_busy.mp ((tallies.mem_iff reg).mpr held)).1

theorem Tallies.keepsLedger (tallies : pool.Tallies ledger) : pool.KeepsLedger ledger where
  busy_iff := tallies.mem_iff
  ordered := by
    have inOrder : Reg.allocatable.Pairwise fun first second => first.index < second.index := by decide
    exact inOrder.filter _
  counted := Reg.length_allocatable ▸ tallies.wellFormed.counted
  available_eq := tallies.wellFormed.available_eq
  reserved := by
    intro reg reserved
    cases free : pool.isFree reg with
    | false => rfl
    | true => exact absurd (tallies.wellFormed.scratch reg free) (by simp [reserved])
  cursor := by
    have bounds := Reg.isAllocatable_iff.mp tallies.wellFormed.cursor
    omega
  exhausted := by
    constructor
    · intro failed
      by_contra left
      obtain ⟨reg, yields, -⟩ := tallies.allocates left
      cases failed.symm.trans yields.1
    · intro full
      have counted := tallies.counted
      exact (allocate_of_exhausted (by omega)).1
  allocates := by
    intro left
    obtain ⟨reg, yields, scratch, unlisted⟩ := tallies.allocates left
    exact ⟨reg, yields.1, scratch, unlisted⟩
  found := by
    intro left
    obtain ⟨reg, found⟩ := tallies.wellFormed.firstFree_isSome (Nat.pos_of_ne_zero left)
    simp [found]
  frees := by
    intro reg
    rw [tallies.result_free]
    by_cases held : reg ∈ ledger <;> cases scratch : reg.isAllocatable <;> simp [held]
  notAllocatable := by
    intro reg
    rw [tallies.result_free]
    by_cases held : reg ∈ ledger
    · simp [held, tallies.scratch_of_mem held]
    · cases scratch : reg.isAllocatable <;> simp [held]
  notAllocated := by
    intro reg
    rw [tallies.result_free]
    by_cases held : reg ∈ ledger <;> cases scratch : reg.isAllocatable <;> simp [held]
  failed _ _ := perform_of_error

/-- After any steps on a fresh pool, refused ones included, flags, count and search position agree with the ledger of
what was handed out, and so do all answers: a register is handed out unless all are, it is one that is not in the
ledger, and exactly the registers in the ledger can be given back. -/
theorem pool_refines_ledger (steps : List PoolStep) : (fresh.after steps).KeepsLedger (RegisterPool.ledger steps) :=
  (Tallies.fresh.after steps).keepsLedger

end RegisterPool

end MipsBackend
