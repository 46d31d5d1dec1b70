import Mathlib.Data.List.Iterate
import MipsBackend.Proofs.PoolLedger

/-! # Next fit

A pool hands out the free register that comes next in a round of the scratch registers, where a round begins with the
register handed out last.

* `Reg.round`: the scratch registers in the order of a round.
* `Reg.round_of_split`: a round that begins later is a rotation.
* `RegisterPool.Searches`: the search as a loop that stops when it is back where it began.
* `RegisterPool.allocations_yields`: allocations in a row hand out what is free in the order of one round.
-/

namespace MipsBackend

/-! ## Rounds -/

namespace Reg

/-- The scratch registers from `start` on, and then those before it. -/
def round (start : Reg) : List Reg :=
  allocatable.filter (start.index ≤ ·.index) ++ allocatable.filter (·.index < start.index)

variable {start reg : Reg}

theorem round_eq_iterate (scratch : start.isAllocatable = true) :
    start.round = List.iterate following start 18 := by
  revert scratch
  cases start <;> decide

theorem iterate_following_eighteen (scratch : start.isAllocatable = true) : following^[18] start = start := by
  have bounds := isAllocatable_iff.mp scratch
  apply index_injective
  apply Fin.ext
  rw [index_iterate_following scratch]
  omega

theorem mem_round (start : Reg) : reg ∈ start.round ↔ reg.isAllocatable = true := by
  have either : start.index ≤ reg.index ∨ reg.index < start.index := by omega
  simp only [round, List.mem_append, List.mem_filter, mem_allocatable, decide_eq_true_eq, ← and_or_left, either,
    and_true]

theorem nodup_round (start : Reg) : start.round.Nodup := by
  rw [round, List.nodup_append]
  refine ⟨nodup_allocatable.filter _, nodup_allocatable.filter _, ?_⟩
  intro later isLater earlier isEarlier
  rw [List.mem_filter, decide_eq_true_eq] at isLater isEarlier
  rintro rfl
  omega

/-- A round that begins with a register on the way has the rest of the way first, and then what came before. -/
theorem round_of_split (scratch : start.isAllocatable = true) {passed rest : List Reg}
    (split : start.round = passed ++ reg :: rest) : reg.round = reg :: rest ++ passed := by
  have isScratch : reg.isAllocatable = true := by rw [← mem_round start, split]; simp
  have whole := round_eq_iterate scratch
  have length : passed.length + (rest.length + 1) = 18 := by
    have lengths := congrArg List.length (split.symm.trans whole)
    simpa using lengths
  rw [split, ← length, List.iterate_add] at whole
  obtain ⟨isPassed, isRest⟩ := List.append_inj whole (by simp)
  have reached : reg = following^[passed.length] start := (List.cons.inj isRest).1
  have returned : following^[rest.length + 1] reg = start := by
    rw [reached, ← Function.iterate_add_apply, Nat.add_comm, length, iterate_following_eighteen scratch]
  rw [round_eq_iterate isScratch, ← length, Nat.add_comm, List.iterate_add, returned, ← isPassed]
  rw [← reached] at isRest
  rw [isRest]

end Reg

namespace RegisterPool

variable {pool after : RegisterPool} {start reg : Reg}

/-! ## Searching -/

theorem firstFree_eq_find? (pool : RegisterPool) (probes : Nat) (start : Reg) :
    pool.firstFree probes start = (List.iterate Reg.following start probes).find? pool.isFree := by
  induction probes generalizing start with
  | zero => rfl
  | succ probes ih =>
    rw [firstFree, List.iterate, List.find?_cons, ih]
    cases pool.isFree start <;> rfl

theorem WellFormed.firstFree_eq (wellFormed : pool.WellFormed) :
    pool.firstFree Reg.allocatable.length pool.cursor = pool.cursor.round.find? pool.isFree := by
  rw [firstFree_eq_find?, Reg.length_allocatable, Reg.round_eq_iterate wellFormed.cursor]

/-- The search as a loop. It looks at one register after the other until one is free or it is back at `start`; how many
it looks at is nowhere laid down. -/
inductive Searches (pool : RegisterPool) (start : Reg) : (reg : Reg) → (probes : Nat) → Option Reg → Prop
  | found {reg : Reg} : pool.isFree reg = true → Searches pool start reg 1 (some reg)
  | back {reg : Reg} : pool.isFree reg = false → reg.following = start → Searches pool start reg 1 none
  | next {reg : Reg} {probes : Nat} {result : Option Reg} :
      pool.isFree reg = false → reg.following ≠ start → Searches pool start reg.following probes result →
      Searches pool start reg (probes + 1) result

theorem Searches.unique {probes otherProbes : Nat} {result other : Option Reg}
    (first : pool.Searches start reg probes result) (second : pool.Searches start reg otherProbes other) :
    probes = otherProbes ∧ result = other := by
  induction first generalizing otherProbes with
  | found free => cases second <;> simp_all
  | back busy isBack => cases second <;> simp_all
  | next busy goesOn _ ih =>
    cases second with
    | found free => simp_all
    | back _ isBack => exact absurd isBack goesOn
    | next _ _ others =>
      obtain ⟨rfl, same⟩ := ih others
      exact ⟨rfl, same⟩

/-- With `left` registers to go until the search is back, it ends after at most so many probes. -/
theorem searches_firstFree (pool : RegisterPool) (scratch : start.isAllocatable = true) {done left : Nat}
    (some : 0 < left) (round : done + left = 18) :
    ∃ probes ≤ left,
      pool.Searches start (Reg.following^[done] start) probes (pool.firstFree left (Reg.following^[done] start)) := by
  have bounds := Reg.isAllocatable_iff.mp scratch
  induction left generalizing done with
  | zero => omega
  | succ left ih =>
    rw [firstFree]
    cases free : pool.isFree (Reg.following^[done] start) with
    | true => exact ⟨1, by omega, .found free⟩
    | false =>
      have onward : (Reg.following^[done] start).following = Reg.following^[done + 1] start :=
        (Function.iterate_succ_apply' Reg.following done start).symm
      cases left with
      | zero =>
        -- The round is complete, so the next register is the first again.
        refine ⟨1, Nat.le_refl 1, .back free ?_⟩
        rw [onward, round, Reg.iterate_following_eighteen scratch]
      | succ left =>
        obtain ⟨probes, few, searches⟩ := ih (Nat.succ_pos left) (show done + 1 + (left + 1) = 18 by omega)
        rw [← onward] at searches
        refine ⟨probes + 1, by omega, .next free ?_ searches⟩
        intro isBack
        have index := Reg.index_iterate_following scratch (done + 1)
        rw [← onward, isBack] at index
        omega

/-! ## Allocating -/

theorem WellFormed.allocate_yields_iff (wellFormed : pool.WellFormed) :
    allocate.Yields pool reg after ↔ pool.cursor.round.find? pool.isFree = some reg ∧ after = pool.taking reg := by
  rw [← wellFormed.firstFree_eq]
  constructor
  · intro yields
    obtain ⟨left, -, isAfter⟩ := allocate_yields yields
    obtain ⟨found, search⟩ := wellFormed.firstFree_isSome left
    have result := yields.1
    simp only [allocate, Nat.pos_iff_ne_zero.mp left, if_false, search] at result
    cases result
    exact ⟨search, isAfter⟩
  · rintro ⟨search, rfl⟩
    have free := isFree_of_firstFree search
    have member := List.mem_filter.mpr ⟨Reg.mem_allocatable.mpr (wellFormed.scratch reg free), free⟩
    have left : pool.available ≠ 0 := by
      rw [wellFormed.available_eq_length]
      exact Nat.ne_of_gt (List.length_pos_of_mem member)
    simp [Action.Yields, allocate, left, search]

/-- A register that is given back at once is the next one handed out, and that undoes the return. -/
theorem taking_returning_taking (pool : RegisterPool) (reg : Reg) :
    ((pool.taking reg).returning reg).taking reg = pool.taking reg := by
  simp [taking, returning, Vector.set_set]

theorem isFree_taking_returning (pool : RegisterPool) (reg : Reg) :
    ((pool.taking reg).returning reg).isFree reg = true := by
  rw [isFree_returning, if_pos rfl]

/-- The registers that `count` allocations in a row hand out. -/
def allocations : (count : Nat) → Action EmitError RegisterPool (List Reg)
  | 0 => pure []
  | count + 1 => do
    let reg ← allocate
    let others ← allocations count
    pure (reg :: others)

/-- The free registers in the order in which a search meets them. -/
def upcoming (pool : RegisterPool) : List Reg := pool.cursor.round.filter pool.isFree

theorem WellFormed.mem_upcoming (wellFormed : pool.WellFormed) : reg ∈ pool.upcoming ↔ pool.isFree reg = true := by
  rw [upcoming, List.mem_filter, Reg.mem_round]
  exact ⟨And.right, fun free => ⟨wellFormed.scratch reg free, free⟩⟩

theorem nodup_upcoming (pool : RegisterPool) : pool.upcoming.Nodup := (Reg.nodup_round pool.cursor).filter _

theorem WellFormed.length_upcoming (wellFormed : pool.WellFormed) : pool.upcoming.length = pool.available := by
  have same : pool.upcoming.Perm (Reg.allocatable.filter pool.isFree) := by
    rw [List.perm_ext_iff_of_nodup pool.nodup_upcoming (Reg.nodup_allocatable.filter _)]
    intro reg
    rw [wellFormed.mem_upcoming, List.mem_filter, Reg.mem_allocatable]
    exact ⟨fun free => ⟨wellFormed.scratch reg free, free⟩, And.right⟩
  rw [same.length_eq, wellFormed.available_eq_length]

/-- Handing out the first register that is met leaves the others in their order, although the next search begins with
that register and not where this one did. -/
theorem WellFormed.upcoming_eq (wellFormed : pool.WellFormed) (found : pool.cursor.round.find? pool.isFree = some reg) :
    pool.upcoming = reg :: (pool.taking reg).upcoming := by
  obtain ⟨free, passed, rest, split, busy⟩ := List.find?_eq_some_iff_append.mp found
  have next : (pool.taking reg).cursor.round = reg :: rest ++ passed := Reg.round_of_split wellFormed.cursor split
  have once := Reg.nodup_round pool.cursor
  rw [split, List.nodup_append, List.nodup_cons] at once
  have isPassed : passed.filter (pool.taking reg).isFree = [] := by
    rw [List.filter_eq_nil_iff]
    intro other member
    have wasBusy := busy other member
    by_cases same : other = reg <;> simp_all [isFree_taking]
  have isRest : rest.filter (pool.taking reg).isFree = rest.filter pool.isFree := by
    apply List.filter_congr
    intro other member
    have apart : other ≠ reg := by
      rintro rfl
      exact once.2.1.1 member
    rw [isFree_taking, if_neg apart]
  have wasPassed : passed.filter pool.isFree = [] := by
    rw [List.filter_eq_nil_iff]
    intro other member
    simpa using busy other member
  have taken : (pool.taking reg).isFree reg = false := by rw [isFree_taking, if_pos rfl]
  rw [upcoming, upcoming, next, split, List.filter_append, List.filter_append, wasPassed, isPassed,
    List.filter_cons_of_pos free, List.filter_cons_of_neg (by simp [taken]), isRest]
  simp

/-- As many allocations as there are free registers hand out all of them, in the order of one round, and leave none. -/
theorem WellFormed.allocations_yields (wellFormed : pool.WellFormed) :
    ∃ after, (allocations pool.available).Yields pool pool.upcoming after ∧ after.available = 0 := by
  induction left : pool.available generalizing pool with
  | zero =>
    have none : pool.upcoming = [] := by rw [← List.length_eq_zero_iff, wellFormed.length_upcoming, left]
    exact ⟨pool, Action.yields_pure_iff.mpr ⟨none.symm, rfl⟩, left⟩
  | succ fewer ih =>
    obtain ⟨reg, yields⟩ := allocate_of_available wellFormed (show 0 < pool.available by omega)
    obtain ⟨found, -⟩ := wellFormed.allocate_yields_iff.mp yields
    obtain ⟨some, free, -⟩ := allocate_yields yields
    have fewerLeft : (pool.taking reg).available = fewer := by
      show pool.available - 1 = fewer
      omega
    obtain ⟨after, others, exhausted⟩ := ih (wellFormed.taking free some) fewerLeft
    refine ⟨after, ?_, exhausted⟩
    rw [wellFormed.upcoming_eq found]
    refine Action.yields_bind_iff.mpr ⟨reg, _, yields, ?_⟩
    exact Action.yields_bind_iff.mpr ⟨_, after, others, Action.yields_pure_iff.mpr ⟨rfl, rfl⟩⟩

/-! ## Every pool in use -/

/-- How a pool searches and what it hands out next. -/
structure NextFit (pool : RegisterPool) : Prop where
  /-- The first free register in the round is handed out, and the next search begins with it. -/
  first : 0 < pool.available →
    ∃ reg, pool.cursor.round.find? pool.isFree = some reg ∧ (allocate pool).result = .ok reg ∧
      (allocate pool).state.cursor = reg
  /-- Allocations in a row hand out every free register once, in the order of one round. The next one is refused. -/
  inTurn : ∃ after, (allocations pool.available).Yields pool (pool.cursor.round.filter pool.isFree) after ∧
    (allocate after).result = .error .outOfRegisters
  each : ∀ reg, pool.isFree reg = true → (pool.cursor.round.filter pool.isFree).count reg = 1
  length : (pool.cursor.round.filter pool.isFree).length = pool.available
  /-- A register that is given back at once is handed out again, as if it had been kept. -/
  again : ∀ reg taken, allocate.Yields pool reg taken →
    ∃ returned, (free reg).Yields taken () returned ∧ allocate.Yields returned reg taken
  /-- The search ends after one round at most, and only one way. -/
  ends : ∃ probes ≤ 18, ∃ result, pool.Searches pool.cursor pool.cursor probes result ∧
    result = pool.firstFree Reg.allocatable.length pool.cursor ∧
    ∀ other found, pool.Searches pool.cursor pool.cursor other found → other = probes ∧ found = result

theorem WellFormed.allocate_again (wellFormed : pool.WellFormed) (yields : allocate.Yields pool reg after) :
    ∃ returned, (free reg).Yields after () returned ∧ allocate.Yields returned reg after := by
  obtain ⟨left, isFree, rfl⟩ := allocate_yields yields
  have scratch := wellFormed.scratch reg isFree
  have held : reg ∈ (pool.taking reg).busy := mem_busy.mpr ⟨scratch, by rw [isFree_taking, if_pos rfl]⟩
  have returned := (wellFormed.taking isFree left).returning held
  refine ⟨_, free_yields_iff.mpr ⟨held, rfl⟩, returned.allocate_yields_iff.mpr ⟨?_, ?_⟩⟩
  · -- The search begins with the register that was given back.
    show reg.round.find? ((pool.taking reg).returning reg).isFree = some reg
    rw [Reg.round_eq_iterate scratch, List.iterate, List.find?_cons_of_pos (pool.isFree_taking_returning reg)]
  · exact (pool.taking_returning_taking reg).symm

theorem WellFormed.nextFit (wellFormed : pool.WellFormed) : pool.NextFit where
  first := by
    intro left
    obtain ⟨reg, yields⟩ := allocate_of_available wellFormed left
    exact ⟨reg, (wellFormed.allocate_yields_iff.mp yields).1, yields.1, by rw [yields.2]; rfl⟩
  inTurn := by
    obtain ⟨after, yields, exhausted⟩ := wellFormed.allocations_yields
    exact ⟨after, yields, (allocate_of_exhausted exhausted).1⟩
  each := by
    intro reg free
    exact List.count_eq_one_of_mem pool.nodup_upcoming (wellFormed.mem_upcoming.mpr free)
  length := wellFormed.length_upcoming
  again reg taken := wellFormed.allocate_again
  ends := by
    obtain ⟨probes, few, searches⟩ := pool.searches_firstFree wellFormed.cursor (show 0 < 18 by omega) (Nat.zero_add 18)
    exact ⟨probes, few, _, searches, rfl, fun other found others => others.unique searches⟩

/-- After any steps on a fresh pool, the register handed out is the first free one in a round that begins with the
register handed out last; allocations in a row go round once; and the search for a register ends within one round. -/
theorem next_fit_in_cyclic_order (steps : List PoolStep) : (fresh.after steps).NextFit :=
  (Tallies.fresh.after steps).wellFormed.nextFit

end RegisterPool

end MipsBackend
