import MipsBackend.Asm.Register
import MipsBackend.Level
import MipsBackend.Script.Request
import MipsBackend.Script.Summary

/-! # Trace events

What the library reports while it works. Each event is one record with a severity and a message.
-/

namespace MipsBackend

inductive Severity
  | trace | debug
deriving DecidableEq

inductive Event
  /-- A register was handed out, leaving `available` of them. -/
  | allocated (reg : Reg) (available : Nat)
  | freed (reg : Reg) (available : Nat)
  /-- State of one register in a report on the whole pool. -/
  | registerState (reg : Reg) (free : Bool)
  | newLabel (label : Label)
  | pushed (kind : ConstructKind) (depth : Nat)
  | popped (kind : ConstructKind) (depth : Nat)
  /-- The text of an inner level went to the level of the given kind. -/
  | levelMerged (size : Nat) (into : ConstructKind)
  | merged (count depth : Nat)
  /-- Head of a report on the whole stack. -/
  | stackState (depth limit : Nat)
  /-- One level in a report on the whole stack, counted from the outermost. -/
  | levelState (position : Nat) (level : Level)
  | buffered (size used : Nat)
  /-- A level was closed; its text went to the stream or to the level around it. -/
  | closed (kind : ConstructKind) (size : Nat) (toStream : Bool)
  | literals (count : Nat)
  | requested (index : Nat) (request : Request)
  | finished (summary : Summary)

namespace Event

def severity : Event → Severity
  | newLabel _ | pushed _ _ | popped _ _ | merged _ _ | closed _ _ _ | literals _ | finished _ => .debug
  | _ => .trace

def message : Event → String
  | allocated reg available => "Allocated " ++ reg.text ++ " (" ++ Nat.repr available ++ " free)"
  | freed reg available => "Freed " ++ reg.text ++ " (" ++ Nat.repr available ++ " free)"
  | registerState reg free => reg.text ++ " is " ++ (if free then "free" else "busy")
  | newLabel label => "New label " ++ label.text
  | pushed kind depth => "Pushed " ++ kind.name ++ " level (depth " ++ Nat.repr depth ++ ")"
  | popped kind depth => "Popped " ++ kind.name ++ " level (depth " ++ Nat.repr depth ++ ")"
  | levelMerged size into =>
    "Merged " ++ Nat.repr size ++ " bytes into " ++ into.name ++ " level"
  | merged count depth =>
    "Merged " ++ Nat.repr count ++ " levels (depth " ++ Nat.repr depth ++ ")"
  | stackState depth limit =>
    "Buffer stack at depth " ++ Nat.repr depth ++ " of " ++ Nat.repr limit
  | levelState position level =>
    "  [" ++ Nat.repr position ++ "] " ++ level.construct.describe ++ ": " ++ Nat.repr level.size ++
      "/" ++ Nat.repr level.capacity ++ " bytes " ++ Text.quoted level.text
  | buffered size used => "Buffered " ++ Nat.repr size ++ " bytes (" ++ Nat.repr used ++ " used)"
  | closed kind size toStream =>
    "Closed " ++ kind.name ++ " level, flushed " ++ Nat.repr size ++ " bytes to " ++
      (if toStream then "output" else "parent level")
  | literals count => "Emitting " ++ Nat.repr count ++ " string literal(s)"
  | requested index request => "Request " ++ Nat.repr index ++ ": " ++ request.describe
  | finished summary => "Script finished: " ++ summary.describe

/-- The event as a record of a log. -/
def record (event : Event) : String :=
  (match event.severity with
    | .trace => "TRACE "
    | .debug => "DEBUG ") ++ event.message

end Event

end MipsBackend
