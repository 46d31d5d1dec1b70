import Mathlib.Data.List.Nodup
import Mathlib.Logic.Function.Iterate
import MipsBackend.Proofs.Outcome
import MipsBackend.RegisterPool

/-! # Registers handed out

The pool keeps a flag for each register, a count and a place to search from. `RegisterPool.WellFormed` says
that the three agree. Then

* `allocate_yields` and `allocate_of_available`: a register is handed out exactly while one is left, and it
  was free;
* `free_yields_iff`: exactly the registers handed out can be given back;
* `busy_taking` and `busy_returning`: the busy registers gain and lose just the one register.
-/

namespace MipsBackend

/-! ## Going round the scratch registers -/

namespace Reg

theorem isAllocatable_iff {reg : Reg} : reg.isAllocatable = true ↔ 8 ≤ reg.index.val ∧ reg.index.val < 26 := by
  cases reg <;> decide

theorem index_following {reg : Reg} (scratch : reg.isAllocatable = true) :
    reg.following.index.val = 8 + (reg.index.val - 8 + 1) % 18 := by
  revert scratch
  cases reg <;> decide

theorem index_iterate_following {reg : Reg} (scratch : reg.isAllocatable = true) (steps : Nat) :
    (following^[steps] reg).index.val = 8 + (reg.index.val - 8 + steps) % 18 := by
  have bounds := isAllocatable_iff.mp scratch
  induction steps with
  | zero =>
    rw [Function.iterate_zero_apply]
    omega
  | succ steps ih =>
    have inside : (following^[steps] reg).isAllocatable = true := by
      rw [isAllocatable_iff]
      omega
    rw [Function.iterate_succ_apply', index_following inside]
    omega

/-- One round passes every scratch register, wherever it begins. -/
theorem exists_iterate_following {reg target : Reg} (scratch : reg.isAllocatable = true)
    (sought : target.isAllocatable = true) : ∃ steps < allocatable.length, following^[steps] reg = target := by
  have bounds := isAllocatable_iff.mp scratch
  have soughtBounds := isAllocatable_iff.mp sought
  refine ⟨(target.index.val + 18 - reg.index.val) % 18, ?_, ?_⟩
  · rw [length_allocatable]
    omega
  · apply index_injective
    apply Fin.ext
    rw [index_iterate_following scratch]
    omega

theorem nodup_allocatable : allocatable.Nodup := by decide

end Reg

namespace RegisterPool

variable {pool after : RegisterPool} {reg other : Reg}

/-! ## Flags -/

theorem get_set_index (flags : Vector Bool 32) (reg other : Reg) (value : Bool) :
    (flags.set reg.index value reg.index.isLt).get other.index = if other = reg then value else flags.get other.index := by
  change (flags.set reg.index value reg.index.isLt)[other.index.val] = if other = reg then value else flags[other.index.val]
  rw [Vector.getElem_set]
  by_cases same : other = reg
  · simp [same]
  · have apart : reg.index.val ≠ other.index.val := by
      intro equal
      exact same (Reg.index_injective (Fin.ext equal.symm))
    rw [if_neg apart, if_neg same]

theorem isFree_taking : (pool.taking reg).isFree other = if other = reg then false else pool.isFree other :=
  get_set_index pool.flags reg other false

theorem isFree_returning : (pool.returning reg).isFree other = if other = reg then true else pool.isFree other :=
  get_set_index pool.flags reg other true

theorem mem_busy : reg ∈ pool.busy ↔ reg.isAllocatable = true ∧ pool.isFree reg = false := by
  simp [busy, Reg.mem_allocatable]

theorem nodup_busy (pool : RegisterPool) : pool.busy.Nodup := Reg.nodup_allocatable.filter _

/-- Taking a register makes it busy and no other. -/
theorem busy_taking (scratch : reg.isAllocatable = true) (free : pool.isFree reg = true) :
    (pool.taking reg).busy.Perm (reg :: pool.busy) := by
  have fresh : reg ∉ pool.busy := by simp [mem_busy, free]
  rw [List.perm_ext_iff_of_nodup (nodup_busy _) (List.nodup_cons.mpr ⟨fresh, nodup_busy _⟩)]
  intro other
  by_cases same : other = reg
  · simp [mem_busy, isFree_taking, same, scratch]
  · simp [mem_busy, isFree_taking, same]

/-- Returning a register frees it and no other. -/
theorem busy_returning (held : reg ∈ pool.busy) : pool.busy.Perm (reg :: (pool.returning reg).busy) := by
  have freed : reg ∉ (pool.returning reg).busy := by simp [mem_busy, isFree_returning]
  rw [List.perm_ext_iff_of_nodup (nodup_busy _) (List.nodup_cons.mpr ⟨freed, nodup_busy _⟩)]
  intro other
  by_cases same : other = reg
  · simp [same, held]
  · simp [mem_busy, isFree_returning, same]

/-! ## Well-formed pools -/

/-- Flags, count and search position agree. -/
structure WellFormed (pool : RegisterPool) : Prop where
  /-- Only scratch registers are ever free. -/
  scratch : ∀ reg, pool.isFree reg = true → reg.isAllocatable = true
  counted : pool.available + pool.outstanding = Reg.allocatable.length
  cursor : pool.cursor.isAllocatable = true

theorem wellFormed_fresh : fresh.WellFormed where
  scratch := by
    intro reg
    cases reg <;> decide
  counted := by decide
  cursor := by decide

theorem WellFormed.taking (wellFormed : pool.WellFormed) (free : pool.isFree reg = true) (left : 0 < pool.available) :
    (pool.taking reg).WellFormed where
  scratch other isFree := by
    rw [isFree_taking] at isFree
    split at isFree
    next => cases isFree
    next => exact wellFormed.scratch other isFree
  counted := by
    have grown := (busy_taking (wellFormed.scratch reg free) free).length_eq
    have counted := wellFormed.counted
    simp only [outstanding, List.length_cons, RegisterPool.taking] at grown counted ⊢
    omega
  cursor := wellFormed.scratch reg free

theorem WellFormed.returning (wellFormed : pool.WellFormed) (held : reg ∈ pool.busy) :
    (pool.returning reg).WellFormed where
  scratch other isFree := by
    rw [isFree_returning] at isFree
    split at isFree
    next same => exact same ▸ (mem_busy.mp held).1
    next => exact wellFormed.scratch other isFree
  counted := by
    have shrunk := (busy_returning held).length_eq
    have counted := wellFormed.counted
    simp only [outstanding, List.length_cons, RegisterPool.returning] at shrunk counted ⊢
    omega
  cursor := wellFormed.cursor

/-! ## Searching -/

theorem isFree_of_firstFree {probes : Nat} {start : Reg} (found : pool.firstFree probes start = some reg) :
    pool.isFree reg = true := by
  induction probes generalizing start with
  | zero => cases found
  | succ probes ih =>
    rw [firstFree] at found
    split at found
    next free =>
      cases found
      exact free
    next => exact ih found

theorem not_isFree_of_firstFree {probes : Nat} {start : Reg} (missed : pool.firstFree probes start = none)
    {steps : Nat} (probed : steps < probes) : pool.isFree (Reg.following^[steps] start) = false := by
  induction probes generalizing start steps with
  | zero => omega
  | succ probes ih =>
    rw [firstFree] at missed
    split at missed
    next => cases missed
    next busy =>
      cases steps with
      | zero => simpa using busy
      | succ steps =>
        rw [Function.iterate_succ_apply]
        exact ih missed (by omega)

/-- A register that is left is found within one round. -/
theorem WellFormed.firstFree_isSome (wellFormed : pool.WellFormed) (left : 0 < pool.available) :
    ∃ reg, pool.firstFree Reg.allocatable.length pool.cursor = some reg := by
  cases found : pool.firstFree Reg.allocatable.length pool.cursor with
  | some reg => exact ⟨reg, rfl⟩
  | none =>
    -- Were every scratch register busy, none would be left.
    have allBusy : pool.busy = Reg.allocatable := by
      rw [busy, List.filter_eq_self]
      intro reg member
      obtain ⟨steps, probed, reached⟩ :=
        Reg.exists_iterate_following wellFormed.cursor (Reg.mem_allocatable.mp member)
      have notFree := not_isFree_of_firstFree found probed
      rw [reached] at notFree
      simp [notFree]
    have counted := wellFormed.counted
    rw [outstanding, allBusy] at counted
    omega

/-! ## Handing out and giving back -/

theorem allocate_yields (yields : allocate.Yields pool reg after) :
    0 < pool.available ∧ pool.isFree reg = true ∧ after = pool.taking reg := by
  obtain ⟨result, rfl⟩ := yields
  unfold allocate at result ⊢
  split at result
  next => cases result
  next left =>
    rw [if_neg left]
    split at result
    next => cases result
    next found search =>
      cases result
      exact ⟨Nat.pos_of_ne_zero left, isFree_of_firstFree search, rfl⟩

theorem allocate_of_available (wellFormed : pool.WellFormed) (left : 0 < pool.available) :
    ∃ reg, allocate.Yields pool reg (pool.taking reg) := by
  obtain ⟨reg, found⟩ := wellFormed.firstFree_isSome left
  refine ⟨reg, ?_⟩
  simp [Action.Yields, allocate, Nat.pos_iff_ne_zero.mp left, found]

theorem allocate_of_exhausted (exhausted : pool.available = 0) : allocate.Stops pool .outOfRegisters pool := by
  simp [Action.Stops, allocate, exhausted]

theorem free_yields_iff {value : Unit} :
    (free reg).Yields pool value after ↔ reg ∈ pool.busy ∧ after = pool.returning reg := by
  rw [mem_busy]
  cases scratch : reg.isAllocatable <;> cases isFree : pool.isFree reg <;>
    simp [Action.Yields, free, scratch, isFree, eq_comm]

theorem free_stops_iff {error : EmitError} :
    (free reg).Stops pool error after ↔
      after = pool ∧
        if reg.isAllocatable then pool.isFree reg = true ∧ error = .notAllocated reg
        else error = .notAllocatable reg := by
  cases scratch : reg.isAllocatable <;> cases isFree : pool.isFree reg <;>
    simp [Action.Stops, free, scratch, isFree, eq_comm, and_comm]

end RegisterPool

end MipsBackend
