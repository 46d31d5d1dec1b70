import MipsBackend.Action
import MipsBackend.Error

/-! # The buffer stack

A bounded stack of levels. Levels are opened on top, and the innermost ones are merged into the
level below them, which keeps their texts in program order. Buffers of levels that are gone are
kept for later levels.
-/

namespace MipsBackend

structure BufferStack where
  /-- Open levels, innermost first. -/
  levels : List Level := []
  maxDepth : Nat
  /-- Capacity of every level, in bytes. -/
  bufferCapacity : Nat
  /-- Buffers of levels that are gone, last one first. -/
  spare : List String := []
deriving DecidableEq

/-- A buffer without the text it held. -/
def emptied (_buffer : String) : String := ""

def Level.opened (construct : Construct) (buffer : String) (capacity : Nat) : Level :=
  ⟨construct, emptied buffer, capacity⟩

/-- The level with a text added at its end, refused if it does not fit. -/
def Level.append (level : Level) (text : String) : Except EmitError Level :=
  if text.utf8ByteSize ≤ level.remaining then .ok (level.extend text)
  else .error (.capacityExceeded (level.size + text.utf8ByteSize) level.capacity)

namespace BufferStack

def depth (stack : BufferStack) : Nat := stack.levels.length

def isEmpty (stack : BufferStack) : Bool := stack.levels.isEmpty

def innermost? (stack : BufferStack) : Option Level := stack.levels.head?

def enclosing? (stack : BufferStack) : Option Level := stack.levels[1]?

def push (construct : Construct) : Action EmitError BufferStack Unit := fun stack =>
  if stack.maxDepth ≤ stack.depth then ⟨.error (.stackOverflow stack.maxDepth), stack, []⟩
  else
    -- The buffer of a level that is gone serves again, emptied.
    let level := Level.opened construct (stack.spare.headD "") stack.bufferCapacity
    let grown := { stack with levels := level :: stack.levels, spare := stack.spare.tail }
    ⟨.ok (), grown, [.pushed construct.kind grown.depth]⟩

/-- The innermost level, which has to exist. -/
def top : Action EmitError BufferStack Level := fun stack =>
  match stack.levels with
  | [] => ⟨.error .emptyStack, stack, []⟩
  | level :: _ => ⟨.ok level, stack, []⟩

def pop : Action EmitError BufferStack Level := fun stack =>
  match stack.levels with
  | [] => ⟨.error .emptyStack, stack, []⟩
  | level :: rest => ⟨.ok level, { stack with levels := rest }, [.popped level.construct.kind rest.length]⟩

def append (text : String) : Action EmitError BufferStack Unit := fun stack =>
  match stack.levels with
  | [] => ⟨.error .emptyStack, stack, []⟩
  | level :: rest =>
    match level.append text with
    | .error error => ⟨.error error, stack, []⟩
    | .ok extended => ⟨.ok (), { stack with levels := extended :: rest }, []⟩

/-- Takes the text out of the innermost level, which stays open. -/
def takeText : Action EmitError BufferStack String := fun stack =>
  match stack.levels with
  | [] => ⟨.error .emptyStack, stack, []⟩
  | level :: rest => ⟨.ok level.text, { stack with levels := { level with text := "" } :: rest }, []⟩

def setConstruct (construct : Construct) : Action EmitError BufferStack Unit := fun stack =>
  match stack.levels with
  | [] => ⟨.error .emptyStack, stack, []⟩
  | level :: rest => ⟨.ok (), { stack with levels := { level with construct } :: rest }, []⟩

/-- Keeps the buffer of a level that is gone. -/
def recycle (buffer : String) (stack : BufferStack) : BufferStack :=
  { stack with spare := emptied buffer :: stack.spare }

/-- Moves the text of the innermost level to the end of the level around it. -/
def mergeInnermost : Action EmitError BufferStack Unit := do
  let inner ← pop
  append inner.text
  let outer ← top
  Action.report (.levelMerged inner.size outer.construct.kind)
  Action.update (recycle inner.text)

def mergeSteps : (steps : Nat) → Action EmitError BufferStack Unit
  | 0 => pure ()
  | steps + 1 => do
    mergeInnermost
    mergeSteps steps

/-- Bytes held by the `count` innermost levels together. -/
def innermostSize (stack : BufferStack) (count : Nat) : Nat := Level.totalSize (stack.levels.take count)

/-- Merges the `count` innermost levels into one, which keeps the construct of the outermost of
them and holds their texts in program order. A refused merge changes nothing. -/
def merge (count : Nat) : Action EmitError BufferStack Unit := do
  let stack ← Action.read
  if count < 2 || stack.depth < count then
    Action.fail (.invalidMerge count stack.depth)
  -- Every check comes before the first merge, so a merge is done whole or not at all.
  else if stack.bufferCapacity < stack.innermostSize count then
    Action.fail (.capacityExceeded (stack.innermostSize count) stack.bufferCapacity)
  else
    mergeSteps (count - 1)
    let merged ← Action.read
    Action.report (.merged count merged.depth)

/-- Drops every level and keeps their buffers. -/
def clear (stack : BufferStack) : BufferStack :=
  stack.levels.foldl (fun left level => left.recycle level.text) { stack with levels := [] }

def stateReport (stack : BufferStack) : List Event :=
  .stackState stack.depth stack.maxDepth ::
    stack.levels.reverse.zipIdx.map fun entry => .levelState entry.2 entry.1

end BufferStack

end MipsBackend
