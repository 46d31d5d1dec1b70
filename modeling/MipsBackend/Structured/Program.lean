import MipsBackend.Control

/-! # Structured programs

Programs of basic operations, sequences, conditionals and loops. `Program.emit` generates a program
with the control constructs; `Program.operations` is the layout it should have, told without levels:
labels are numbered in the order in which constructs begin.
-/

namespace MipsBackend

inductive Program
  | skip
  | basic (operation : Operation) (isBasic : operation.isBasic = true)
  | seq (first second : Program)
  /-- Runs the body if the register is not zero. -/
  | ifThen (cond : Reg) (body : Program)
  /-- Runs the first part if the register is not zero, the second otherwise. -/
  | ifElse (cond : Reg) (first second : Program)
  /-- Runs the test, and as long as the register is not zero then, the body and the test again. -/
  | whileLoop (test : Program) (cond : Reg) (body : Program)

namespace Program

/-- How many labels a program takes. -/
def labelCount : Program → Nat
  | skip | basic _ _ => 0
  | seq first second => first.labelCount + second.labelCount
  | ifThen _ body => 2 + body.labelCount
  | ifElse _ first second => 2 + first.labelCount + second.labelCount
  | whileLoop test _ body => 2 + test.labelCount + body.labelCount

/-- How many levels a program opens at once. The second part of a conditional is generated on top of
the first. -/
def nesting : Program → Nat
  | skip | basic _ _ => 0
  | seq first second => max first.nesting second.nesting
  | ifThen _ body => 1 + body.nesting
  | ifElse _ first second => max (1 + first.nesting) (2 + second.nesting)
  | whileLoop test _ body => 1 + max test.nesting body.nesting

/-- The operations of a program in order, its labels numbered from `base` on. -/
def operations : Program → (base : Nat) → List Operation
  | skip, _ => []
  | basic operation _, _ => [operation]
  | seq first second, base => first.operations base ++ second.operations (base + first.labelCount)
  | ifThen cond body, base =>
    .beq cond .zero ⟨base⟩ :: body.operations (base + 2) ++ [.place ⟨base⟩]
  | ifElse cond first second, base =>
    .beq cond .zero ⟨base⟩ :: first.operations (base + 2) ++
      .jump ⟨base + 1⟩ :: .place ⟨base⟩ :: second.operations (base + 2 + first.labelCount) ++
      [.place ⟨base + 1⟩]
  | whileLoop test cond body, base =>
    .place ⟨base⟩ :: test.operations (base + 2) ++
      .beq cond .zero ⟨base + 1⟩ :: body.operations (base + 2 + test.labelCount) ++
      [.jump ⟨base⟩, .place ⟨base + 1⟩]

/-- The instructions of a program in order, its labels numbered from `base` on. -/
def code (annotate : Bool) (program : Program) (base : Nat) : List Inst :=
  Fragment.allEmitted annotate ((program.operations base).map Operation.fragment)

/-- Text of a program, its labels numbered from `base` on. -/
def layout (annotate : Bool) (program : Program) (base : Nat) : String :=
  Inst.lines (program.code annotate base)

/-- Generates a program with the control constructs. -/
def emit : Program → Emission Unit
  | skip => pure ()
  | basic operation _ => Emission.emit operation
  | seq first second => do
    first.emit
    second.emit
  | ifThen cond body => do
    Emission.beginIf cond
    body.emit
    Emission.endIf
  | ifElse cond first second => do
    Emission.beginIf cond
    first.emit
    Emission.beginElse
    second.emit
    Emission.endIf
  | whileLoop test cond body => do
    Emission.beginWhile
    test.emit
    Emission.loopTest cond
    body.emit
    Emission.endWhile

end Program

end MipsBackend
