import MipsBackend.Asm.Register
import MipsBackend.Device.Fault
import MipsBackend.Level

/-! # Emission errors

Why an emission step was refused, in causes; `message` is the one place that words them.
-/

namespace MipsBackend

inductive EmitError
  /-- Every scratch register is handed out. -/
  | outOfRegisters
  /-- The register is never handed out, so it cannot be given back. -/
  | notAllocatable (reg : Reg)
  /-- The register was given back while it was not handed out. -/
  | notAllocated (reg : Reg)
  | emptyStack
  /-- A level more than the limit was opened. -/
  | stackOverflow (limit : Nat)
  /-- Fewer than two levels, or more than are open, were to be merged. -/
  | invalidMerge (requested depth : Nat)
  | capacityExceeded (needed capacity : Nat)
  /-- The innermost level belongs to another kind of construct. -/
  | constructMismatch (expected found : ConstructKind)
  /-- The program ends while levels are open. -/
  | unclosedLevels (depth : Nat)
  | missingLiteral (name : String)
  | io (fault : Fault)
deriving DecidableEq

namespace EmitError

def message : EmitError → String
  | outOfRegisters =>
    "no more registers available (all " ++ Nat.repr Reg.allocatable.length ++
      " allocatable registers are busy)"
  | notAllocatable reg => "register " ++ reg.text ++ " is not an allocatable register"
  | notAllocated reg => "register " ++ reg.text ++ " was not allocated"
  | emptyStack => "buffer stack is empty"
  | stackOverflow limit => "buffer stack is full (limit: " ++ Nat.repr limit ++ " levels)"
  | invalidMerge requested depth =>
    "cannot merge " ++ Nat.repr requested ++ " levels (stack holds " ++ Nat.repr depth ++
      ", need at least 2)"
  | capacityExceeded needed capacity =>
    "buffer capacity exceeded: need " ++ Nat.repr needed ++ " bytes, capacity is " ++
      Nat.repr capacity
  | constructMismatch expected found =>
    "expected a " ++ expected.name ++ " level, found " ++ found.name
  | unclosedLevels depth => Nat.repr depth ++ " buffering level(s) still open at end of program"
  | missingLiteral name => "string literal '" ++ name ++ "' not found in string table"
  | io fault => fault.message

/-- Exit status of a program stopped by the error. -/
def exitCode : EmitError → Int
  | io fault => fault.exitCode
  | _ => 1

end EmitError

end MipsBackend
