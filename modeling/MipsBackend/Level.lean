import MipsBackend.Asm.Label

/-! # Buffered levels

A level holds text of a control construct that cannot be released yet. It knows the construct it
belongs to, with the jump targets, and never holds more bytes than its capacity.
-/

namespace MipsBackend

inductive ConstructKind
  | conditional | elseBranch | loop
deriving DecidableEq

namespace ConstructKind

def name : ConstructKind → String
  | conditional => "conditional"
  | elseBranch => "else"
  | loop => "loop"

end ConstructKind

/-- A control construct with its jump targets. -/
inductive Construct
  /-- A false condition goes to `elseLabel`; the first branch jumps to `endLabel` past the second. -/
  | conditional (elseLabel endLabel : Label) (inElse : Bool)
  /-- The condition is tested at `entryLabel`; `exitLabel` follows the body. -/
  | loop (entryLabel exitLabel : Label)
deriving DecidableEq

namespace Construct

/-- The role a construct plays on its level. -/
def kind : Construct → ConstructKind
  | conditional _ _ false => .conditional
  | conditional _ _ true => .elseBranch
  | loop _ _ => .loop

/-- A construct with all its parts, as trace messages show it. -/
def describe : Construct → String
  | conditional elseLabel endLabel inElse =>
    "Conditional \x7b else_label: Label(" ++ Nat.repr elseLabel.id ++ "), end_label: Label(" ++
      Nat.repr endLabel.id ++ "), in_else: " ++ (if inElse then "true" else "false") ++ " \x7d"
  | loop entryLabel exitLabel =>
    "Loop \x7b entry: Label(" ++ Nat.repr entryLabel.id ++ "), exit: Label(" ++
      Nat.repr exitLabel.id ++ ") \x7d"

end Construct

/-- One level of deferred text. Sizes are counted in bytes. -/
structure Level where
  construct : Construct
  text : String
  capacity : Nat
deriving DecidableEq

namespace Level

def size (level : Level) : Nat := level.text.utf8ByteSize

/-- Bytes held by several levels together. -/
def totalSize : List Level → Nat
  | [] => 0
  | level :: rest => level.size + totalSize rest

def isEmpty (level : Level) : Bool := level.size == 0

def remaining (level : Level) : Nat := level.capacity - level.size

def extend (level : Level) (text : String) : Level := { level with text := level.text ++ text }

@[simp] theorem text_extend (level : Level) (text : String) :
    (level.extend text).text = level.text ++ text := rfl

@[simp] theorem construct_extend (level : Level) (text : String) :
    (level.extend text).construct = level.construct := rfl

@[simp] theorem capacity_extend (level : Level) (text : String) :
    (level.extend text).capacity = level.capacity := rfl

@[simp] theorem size_extend (level : Level) (text : String) :
    (level.extend text).size = level.size + text.utf8ByteSize := by
  simp [size]

end Level

end MipsBackend
