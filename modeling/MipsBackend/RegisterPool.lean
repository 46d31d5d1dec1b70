import MipsBackend.Action
import MipsBackend.Error

/-! # The register pool

Hands out the scratch registers and takes them back. The search for a free register starts at the
register handed out last and goes round once, so a register given back at once is the next one
handed out again. A failed operation leaves the pool as it was.
-/

namespace MipsBackend

/-- Which registers can be handed out. -/
structure RegisterPool where
  /-- Whether each register is free, by hardware number; registers outside the block never are. -/
  flags : Vector Bool 32
  available : Nat
  /-- The register handed out last, where the next search starts. -/
  cursor : Reg
deriving DecidableEq

namespace RegisterPool

def fresh : RegisterPool where
  flags := Vector.ofFn fun index => Reg.t0.index ≤ index && index ≤ Reg.t9.index
  available := Reg.allocatable.length
  cursor := .t0

def isFree (pool : RegisterPool) (reg : Reg) : Bool := pool.flags.get reg.index

/-- The registers handed out, in hardware order. -/
def busy (pool : RegisterPool) : List Reg := Reg.allocatable.filter fun reg => !pool.isFree reg

def outstanding (pool : RegisterPool) : Nat := pool.busy.length

/-- The first free register among `probes` of them, from `reg` on and going round the block. -/
def firstFree (pool : RegisterPool) : (probes : Nat) → (reg : Reg) → Option Reg
  | 0, _ => none
  | probes + 1, reg => if pool.isFree reg then some reg else pool.firstFree probes reg.following

/-- The pool without `reg`, which was handed out. -/
def taking (pool : RegisterPool) (reg : Reg) : RegisterPool where
  flags := pool.flags.set reg.index false
  available := pool.available - 1
  cursor := reg

/-- The pool with `reg`, which was given back. -/
def returning (pool : RegisterPool) (reg : Reg) : RegisterPool :=
  { pool with flags := pool.flags.set reg.index true, available := pool.available + 1 }

def allocate : Action EmitError RegisterPool Reg := fun pool =>
  if pool.available = 0 then ⟨.error .outOfRegisters, pool, []⟩
  else
    -- The search starts at the register handed out last and goes once round the block.
    match pool.firstFree Reg.allocatable.length pool.cursor with
    | none => ⟨.error .outOfRegisters, pool, []⟩
    | some reg =>
      let left := pool.taking reg
      ⟨.ok reg, left, [.allocated reg left.available]⟩

def free (reg : Reg) : Action EmitError RegisterPool Unit := fun pool =>
  if !reg.isAllocatable then ⟨.error (.notAllocatable reg), pool, []⟩
  else if pool.isFree reg then ⟨.error (.notAllocated reg), pool, []⟩
  else
    let left := pool.returning reg
    ⟨.ok (), left, [.freed reg left.available]⟩

def stateReport (pool : RegisterPool) : List Event :=
  Reg.all.map fun reg => .registerState reg (pool.isFree reg)

end RegisterPool

end MipsBackend
