/-! # Binary operators

Arithmetic, logic and comparison operators, with the mnemonics of their register form and of
their immediate form. The comparisons other than `slt` keep one mnemonic for both forms.
-/

namespace MipsBackend

inductive Operator
  | add | sub | mul | div | xor | or | and
  | slt | sle | sgt | sge | seq | sne
deriving DecidableEq, Inhabited

namespace Operator

def all : List Operator := [add, sub, mul, div, xor, or, and, slt, sle, sgt, sge, seq, sne]

/-- Mnemonic of the form with two register operands. -/
def mnemonic : Operator → String
  | add => "add" | sub => "sub" | mul => "mul" | div => "div"
  | xor => "xor" | or => "or" | and => "and"
  | slt => "slt" | sle => "sle" | sgt => "sgt" | sge => "sge" | seq => "seq" | sne => "sne"

/-- Mnemonic of the form whose second operand is an immediate. -/
def immediateMnemonic : Operator → String
  | add => "addi" | sub => "subi" | mul => "muli" | div => "divi"
  | xor => "xori" | or => "ori" | and => "andi"
  | slt => "slti"
  | sle => "sle" | sgt => "sgt" | sge => "sge" | seq => "seq" | sne => "sne"

/-- The operator whose register form has the given mnemonic. -/
def ofMnemonic? (name : String) : Option Operator := all.find? fun operator => operator.mnemonic == name

theorem mem_all (operator : Operator) : operator ∈ all := by
  cases operator <;> decide

end Operator

end MipsBackend
