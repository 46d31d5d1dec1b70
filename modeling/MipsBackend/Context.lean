import MipsBackend.Asm.Operation
import MipsBackend.BufferStack
import MipsBackend.Device.Stream
import MipsBackend.RegisterPool
import MipsBackend.StringTable

/-! # The emission context

Everything one program is generated with: the register pool, the buffer stack, the label supply,
the output stream and the options. Text goes to the innermost level while one is open and to the
stream otherwise.
-/

namespace MipsBackend

structure Options where
  /-- How many levels may be open at once. -/
  maxDepth : Nat := 100
  /-- How many bytes a level holds. -/
  bufferCapacity : Nat := 8192
  /-- Whether a comment stands before each operation. -/
  annotate : Bool := false
deriving DecidableEq

structure Context where
  stream : Stream
  pool : RegisterPool
  stack : BufferStack
  labels : LabelSupply
  options : Options

/-- A step of code generation that gives an `α`. -/
abbrev Emission (α : Type) : Type := Action EmitError Context α

namespace Context

def start (options : Options) (stream : Stream) : Context where
  stream := stream
  pool := .fresh
  stack := { maxDepth := options.maxDepth, bufferCapacity := options.bufferCapacity }
  labels := {}
  options := options

def isBuffered (context : Context) : Bool := !context.stack.isEmpty

/-- The state before any step on the same output: all registers free, no level, no label issued. -/
def reset (context : Context) : Context :=
  { context with pool := .fresh, stack := context.stack.clear, labels := {} }

end Context

namespace Emission

def onPool {α : Type} (action : Action EmitError RegisterPool α) : Emission α :=
  action.focus Context.pool fun context pool => { context with pool }

def onStack {α : Type} (action : Action EmitError BufferStack α) : Emission α :=
  action.focus Context.stack fun context stack => { context with stack }

def write (text : String) : Emission Unit := fun context =>
  let (result, stream) := context.stream.write text
  ⟨result.mapError .io, { context with stream }, []⟩

def buffer (text : String) : Emission Unit := do
  onStack (BufferStack.append text)
  let level ← onStack BufferStack.top
  Action.report (.buffered text.utf8ByteSize level.size)

/-- Adds a text where text goes now: to the innermost level, or else to the stream. -/
def append (text : String) : Emission Unit := do
  let context ← Action.read
  if context.isBuffered then buffer text else write text

def appendAll (insts : List Inst) : Emission Unit := append (Inst.lines insts)

def alloc : Emission Reg :=
  (onPool RegisterPool.allocate).reportingFailure fun context => context.pool.stateReport

def free (reg : Reg) : Emission Unit := onPool (RegisterPool.free reg)

def newLabel : Emission Label := fun context =>
  let (label, labels) := context.labels.next
  ⟨.ok label, { context with labels }, [.newLabel label]⟩

def push (construct : Construct) : Emission Unit :=
  (onStack (BufferStack.push construct)).reportingFailure fun context => context.stack.stateReport

def merge (count : Nat) : Emission Unit :=
  (onStack (BufferStack.merge count)).reportingFailure fun context => context.stack.stateReport

/-- Whether the innermost level exists and its text fits into the level around it, if any. -/
def closable (stack : BufferStack) : Except EmitError Unit :=
  match stack.levels with
  | [] => .error .emptyStack
  | [_] => .ok ()
  | level :: parent :: _ =>
    if level.size ≤ parent.remaining then .ok ()
    else .error (.capacityExceeded (parent.size + level.size) parent.capacity)

/-- Removes the innermost level and adds its text to what encloses it: the level around it, or the
stream once no level is left. A level around it that is too small leaves everything as it was. -/
def close : Emission Construct := do
  let context ← Action.read
  -- Once this check has passed, only the stream can refuse the text.
  (Action.ofExcept (closable context.stack)).reportingFailure fun context => context.stack.stateReport
  let level ← onStack BufferStack.pop
  append level.text
  let outside ← Action.read
  Action.report (.closed level.construct.kind level.size outside.stack.isEmpty)
  onStack (Action.update (BufferStack.recycle level.text))
  pure level.construct

/-- Gives up the context and completes the output; gives the number of bytes written. -/
def release : Emission Nat := do
  onStack (Action.update BufferStack.clear)
  let context ← Action.read
  Action.ofExcept (context.stream.flush.mapError .io)
  pure context.stream.written.size

end Emission

end MipsBackend
