import MipsBackend.Error

/-! # Replay errors

Why the replay of a script stopped, with the position of the request.
-/

namespace MipsBackend

inductive ReplayError
  /-- Code generation refused the request of the given name. -/
  | emission (index : Nat) (request : String) (cause : EmitError)
  | unknownRegister (index : Nat) (name : String)
  | unknownLabel (index : Nat) (name : String)
  | slotInUse (index : Nat) (name : String)
  /-- The register belongs to a slot and is given back through it. -/
  | registerHeld (index : Nat) (name slot : String)
  | unknownOperator (index : Nat) (name : String)
  | finish (cause : EmitError)
deriving DecidableEq

namespace ReplayError

def message : ReplayError → String
  | emission index request cause =>
    "code generation failed at request " ++ Nat.repr index ++ " (" ++ request ++ "): " ++ cause.message
  | unknownRegister index name =>
    "request " ++ Nat.repr index ++ ": unknown register or slot '" ++ name ++ "'"
  | unknownLabel index name => "request " ++ Nat.repr index ++ ": unknown label '" ++ name ++ "'"
  | slotInUse index name => "request " ++ Nat.repr index ++ ": slot '" ++ name ++ "' is already bound"
  | registerHeld index name slot =>
    "request " ++ Nat.repr index ++ ": register " ++ name ++ " is held by slot '" ++ slot ++
      "'; free the slot instead"
  | unknownOperator index name => "request " ++ Nat.repr index ++ ": unknown operator '" ++ name ++ "'"
  | finish cause => "end of program: " ++ cause.message

/-- Exit status of a program stopped by the error. -/
def exitCode : ReplayError → Int
  | emission _ _ cause | finish cause => cause.exitCode
  | _ => 1

end ReplayError

end MipsBackend
