import MipsBackend.Asm.Instruction

/-! # Emitted operations

A `Fragment` is what one call emits in one piece: instructions, preceded by a comment when
annotation is on. `Operation` lists the basic operations a program is made of, each with its
fragment; the fragments that frame a program stand beside them.
-/

namespace MipsBackend

/-- Instructions emitted together, with the note that annotation puts in front of them. -/
structure Fragment where
  note : Option String
  insts : List Inst
deriving DecidableEq

namespace Fragment

/-- The comment line that annotation adds, if the fragment has a note. -/
def remark (annotate : Bool) (fragment : Fragment) : List Inst :=
  match annotate, fragment.note with
  | true, some note => [.comment note]
  | _, _ => []

def emitted (annotate : Bool) (fragment : Fragment) : List Inst :=
  fragment.remark annotate ++ fragment.insts

def text (annotate : Bool) (fragment : Fragment) : String := Inst.lines (fragment.emitted annotate)

/-- Everything that fragments emit one after the other. -/
def allEmitted (annotate : Bool) (fragments : List Fragment) : List Inst :=
  fragments.flatMap fun fragment => fragment.emitted annotate

/-- Text of fragments emitted one after the other. -/
def allText (annotate : Bool) (fragments : List Fragment) : String :=
  Inst.lines (allEmitted annotate fragments)

end Fragment

/-- Numbers of the system services that programs ask for in `$v0`. -/
inductive Service
  | printInt | printString | readInt | exit
deriving DecidableEq

namespace Service

def number : Service → Int64
  | printInt => 1
  | printString => 4
  | readInt => 5
  | exit => 10

def call (service : Service) : List Inst := [.li .v0 service.number, .syscall]

end Service

/-- Data symbol of the text that ends a line. -/
def newlineSymbol : String := ".newline"

inductive Operation
  | op (operator : Operator) (dst lhs rhs : Reg)
  | opImm (operator : Operator) (dst src : Reg) (value : Int64)
  | lw (dst base : Reg) (offset : Int64)
  | sw (src base : Reg) (offset : Int64)
  | li (dst : Reg) (value : Int64)
  | la (dst : Reg) (symbol : String)
  | jump (target : Label)
  | beq (lhs rhs : Reg) (target : Label)
  | move (dst src : Reg)
  | place (target : Label)
  | writeNewline
  | writeInt (value : Int64)
  /-- Prints the integer a register holds. -/
  | writeReg (reg : Reg)
  /-- Prints the text whose address a register holds. -/
  | writeString (reg : Reg)
  /-- Reads an integer into a register. -/
  | readInt (dst : Reg)
deriving DecidableEq

namespace Operation

def insts : Operation → List Inst
  | op operator dst lhs rhs => [.op operator dst lhs rhs]
  | opImm operator dst src value => [.opImm operator dst src value]
  | lw dst base offset => [.lw dst base offset]
  | sw src base offset => [.sw src base offset]
  | li dst value => [.li dst value]
  | la dst symbol => [.la dst symbol]
  | jump target => [.j target]
  | beq lhs rhs target => [.beq lhs rhs target]
  | move dst src => [.move dst src]
  | place target => [.label target]
  | writeNewline => .la .a0 newlineSymbol :: Service.printString.call
  | writeInt value => .li .a0 value :: Service.printInt.call
  | writeReg reg => .move .a0 reg :: Service.printInt.call
  | writeString reg => .move .a0 reg :: Service.printString.call
  | readInt dst => Service.readInt.call ++ [.move dst .v0]

/-- What annotation says about an operation. A placed label speaks for itself. -/
def note : Operation → Option String
  | op operator dst lhs rhs =>
    some (dst.name ++ " = " ++ operator.mnemonic ++ " (" ++ lhs.name ++ ", " ++ rhs.name ++ ")")
  | opImm operator dst src value =>
    some (dst.name ++ " = " ++ operator.mnemonic ++ " (" ++ src.name ++ ", " ++ immediateText value ++ ")")
  | lw dst base offset => some (dst.name ++ " = " ++ base.name ++ "[" ++ immediateText offset ++ "]")
  | sw src base offset => some (base.name ++ "[" ++ immediateText offset ++ "] = " ++ src.name)
  | li dst value => some (dst.name ++ " = " ++ immediateText value)
  | la dst symbol => some (dst.name ++ " = " ++ symbol)
  | jump target => some ("goto " ++ target.text)
  | beq lhs rhs target => some ("if " ++ lhs.name ++ " == " ++ rhs.name ++ " goto " ++ target.text)
  | move dst src => some (dst.name ++ " = " ++ src.name)
  | place _ => none
  | writeNewline => some "print new line"
  | writeInt _ => some "print constant value"
  | writeReg _ => some "print register content"
  | writeString _ => some "print constant string"
  | readInt dst => some (dst.name ++ " = <stdin>")

/-- Whether an operation leaves the flow of control alone. -/
def isBasic : Operation → Bool
  | jump _ | beq _ _ _ | place _ => false
  | _ => true

def fragment (operation : Operation) : Fragment := ⟨operation.note, operation.insts⟩

def text (annotate : Bool) (operation : Operation) : String := operation.fragment.text annotate

end Operation

/-- A data line that stores a text under a symbol. -/
def asciizLine (symbol content : String) : Inst :=
  .directive (symbol ++ ": .asciiz \"" ++ content ++ "\"")

namespace Fragment

/-- Opens a program: the line-end text, then the entry point. -/
def prolog : Fragment where
  note := some "prolog"
  insts := [.directive ".data", asciizLine newlineSymbol "\\n", .directive ".text",
    .directive ".globl main", .directive "main: nop"]

def epilog : Fragment where
  note := some "exit()ing the program"
  insts := Service.exit.call

/-- The data section that holds the string literals, each under its symbol. -/
def dataSection (entries : List (String × String)) : Fragment where
  note := none
  insts := .directive ".data" :: entries.map fun entry => asciizLine entry.1 entry.2

end Fragment

end MipsBackend
