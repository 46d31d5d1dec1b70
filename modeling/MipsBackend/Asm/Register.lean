/-! # The register file

The 32 general purpose registers in hardware order, their assembler names, and the block of
18 scratch registers that the pool may hand out.
-/

namespace MipsBackend

/-- A general purpose register. Constructors stand in the order of their hardware numbers. -/
inductive Reg
  /-- Always reads as zero. -/
  | zero
  /-- Reserved for the assembler, which calls it `at`. -/
  | assembler
  | v0 | v1
  | a0 | a1 | a2 | a3
  | t0 | t1 | t2 | t3 | t4 | t5 | t6 | t7
  | s0 | s1 | s2 | s3 | s4 | s5 | s6 | s7
  | t8 | t9
  | k0 | k1
  | gp | fp | sp
  | ra
deriving DecidableEq, Inhabited

namespace Reg

def all : List Reg :=
  [zero, assembler, v0, v1, a0, a1, a2, a3,
   t0, t1, t2, t3, t4, t5, t6, t7,
   s0, s1, s2, s3, s4, s5, s6, s7,
   t8, t9, k0, k1, gp, fp, sp, ra]

def index (reg : Reg) : Fin 32 := ⟨reg.ctorIdx, by cases reg <;> decide⟩

def ofIndex? (index : Nat) : Option Reg := all[index]?

/-- Assembler name, without the sigil. -/
def name : Reg → String
  | zero => "zero" | assembler => "at"
  | v0 => "v0" | v1 => "v1"
  | a0 => "a0" | a1 => "a1" | a2 => "a2" | a3 => "a3"
  | t0 => "t0" | t1 => "t1" | t2 => "t2" | t3 => "t3"
  | t4 => "t4" | t5 => "t5" | t6 => "t6" | t7 => "t7"
  | s0 => "s0" | s1 => "s1" | s2 => "s2" | s3 => "s3"
  | s4 => "s4" | s5 => "s5" | s6 => "s6" | s7 => "s7"
  | t8 => "t8" | t9 => "t9"
  | k0 => "k0" | k1 => "k1"
  | gp => "gp" | fp => "fp" | sp => "sp"
  | ra => "ra"

/-- Assembler operand: the sigil and the name. -/
def text (reg : Reg) : String := "$" ++ reg.name

/-- Whether a name is written with the sigil of fixed registers. -/
def hasSigil (name : String) : Bool := name.toList.head? == some '$'

/-- A register name with one leading sigil removed, if there is one. -/
def bareName (name : String) : String :=
  match name.toList with
  | '$' :: rest => String.ofList rest
  | _ => name

/-- The register a name stands for, with or without the sigil. -/
def ofName? (name : String) : Option Reg := all.find? fun reg => reg.name == bareName name

/-- Whether the pool may hand this register out: `t0` to `t9` in hardware order. -/
def isAllocatable (reg : Reg) : Bool := t0.index ≤ reg.index && reg.index ≤ t9.index

/-- The scratch registers, in hardware order. -/
def allocatable : List Reg := all.filter isAllocatable

/-- The scratch register after `reg`, going round from `t9` to `t0`. -/
def following (reg : Reg) : Reg :=
  if reg = t9 then t0 else (ofIndex? (reg.index + 1)).getD t0

theorem ofIndex?_index (reg : Reg) : ofIndex? reg.index = some reg := by
  cases reg <;> rfl

theorem mem_all (reg : Reg) : reg ∈ all := by
  cases reg <;> decide

theorem length_allocatable : allocatable.length = 18 := by decide

theorem mem_allocatable {reg : Reg} : reg ∈ allocatable ↔ reg.isAllocatable = true := by
  simp [allocatable, mem_all]

theorem index_injective {left right : Reg} (h : left.index = right.index) : left = right := by
  have hleft := ofIndex?_index left
  rw [h, ofIndex?_index right] at hleft
  exact (Option.some.inj hleft).symm

end Reg

end MipsBackend
