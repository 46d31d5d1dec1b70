import MipsBackend.Asm.Label
import MipsBackend.Asm.Operator
import MipsBackend.Asm.Register

/-! # Instructions

The instruction forms the library emits and their text. `Inst.line` is a whole output line:
labels and directives start at column zero, everything else is indented by one tab.
-/

namespace MipsBackend

inductive Inst
  /-- `dst = lhs operator rhs` -/
  | op (operator : Operator) (dst lhs rhs : Reg)
  /-- `dst = src operator value` -/
  | opImm (operator : Operator) (dst src : Reg) (value : Int64)
  | lw (dst base : Reg) (offset : Int64)
  | sw (src base : Reg) (offset : Int64)
  | li (dst : Reg) (value : Int64)
  /-- Loads the address of a data symbol. -/
  | la (dst : Reg) (symbol : String)
  | j (target : Label)
  | beq (lhs rhs : Reg) (target : Label)
  | move (dst src : Reg)
  | syscall
  | nop
  | label (target : Label)
  | directive (text : String)
  | comment (text : String)
deriving DecidableEq, Inhabited

def immediateText (value : Int64) : String := Int.repr value.toInt

namespace Inst

/-- The instruction without indentation and line end. -/
def text : Inst → String
  | op operator dst lhs rhs =>
    operator.mnemonic ++ " " ++ dst.text ++ ", " ++ lhs.text ++ ", " ++ rhs.text
  | opImm operator dst src value =>
    operator.immediateMnemonic ++ " " ++ dst.text ++ ", " ++ src.text ++ ", " ++ immediateText value
  | lw dst base offset => "lw " ++ dst.text ++ ", " ++ immediateText offset ++ "(" ++ base.text ++ ")"
  | sw src base offset => "sw " ++ src.text ++ ", " ++ immediateText offset ++ "(" ++ base.text ++ ")"
  | li dst value => "li " ++ dst.text ++ ", " ++ immediateText value
  | la dst symbol => "la " ++ dst.text ++ ", " ++ symbol
  | j target => "j " ++ target.text
  | beq lhs rhs target => "beq " ++ lhs.text ++ ", " ++ rhs.text ++ ", " ++ target.text
  | move dst src => "move " ++ dst.text ++ ", " ++ src.text
  | syscall => "syscall"
  | nop => "nop"
  | label target => target.text ++ ":"
  | directive text => text
  | comment text => "# " ++ text

/-- Whether the line starts at column zero. -/
def isFlush : Inst → Bool
  | label _ | directive _ => true
  | _ => false

/-- The instruction as a complete output line. -/
def line (inst : Inst) : String :=
  if inst.isFlush then inst.text ++ "\n" else "\t" ++ inst.text ++ "\n"

/-- The lines of a sequence of instructions, in order. -/
def lines : List Inst → String
  | [] => ""
  | inst :: rest => inst.line ++ lines rest

@[simp] theorem lines_nil : lines [] = "" := rfl

@[simp] theorem lines_cons (inst : Inst) (rest : List Inst) :
    lines (inst :: rest) = inst.line ++ lines rest := rfl

theorem lines_append (left right : List Inst) : lines (left ++ right) = lines left ++ lines right := by
  induction left with
  | nil => simp
  | cons inst rest ih => simp [ih, String.append_assoc]

end Inst

end MipsBackend
