import MipsBackend.Control

/-! # Sessions

A session performs steps on one context, one after the other. A failed step does not end it: the
next step works on whatever is left.
-/

namespace MipsBackend

inductive Step
  | alloc
  | free (reg : Reg)
  | isFree (reg : Reg)
  | busy
  | label
  | peek
  | options
  | push (construct : Construct)
  | merge (count : Nat)
  | close
  | append (text : String)
  | appendAll (insts : List Inst)
  | isBuffered
  | top
  | enclosing
  | emit (operation : Operation)
  | prolog
  | epilog
  | stringLiterals (table : StringTable)
  | finish (table : StringTable)
  | beginIf (cond : Reg)
  | beginElse
  | endIf
  | beginWhile
  | loopTest (cond : Reg)
  | endWhile
  | reset
  /-- Gives up the context; the last step of a session. -/
  | release

/-- What a step answers when it succeeds. -/
inductive Answer
  | done
  | register (reg : Reg)
  | registers (regs : List Reg)
  | flag (value : Bool)
  | number (value : Nat)
  | label (label : Label)
  | options (options : Options) (stackLimit : Nat)
  | construct (construct : Construct)
  | level (level : Option Level)

namespace Step

def perform : Step → Emission Answer
  | alloc => .register <$> Emission.alloc
  | free reg => (fun _ => .done) <$> Emission.free reg
  | isFree reg => (fun context => .flag (context.pool.isFree reg)) <$> Action.read
  | busy => (fun context => .registers context.pool.busy) <$> Action.read
  | label => .label <$> Emission.newLabel
  | peek => (fun context => .number context.labels.peek.id) <$> Action.read
  | options => (fun context => .options context.options context.stack.maxDepth) <$> Action.read
  | push construct => (fun _ => .done) <$> Emission.push construct
  | merge count => (fun _ => .done) <$> Emission.merge count
  | close => .construct <$> Emission.close
  | append text => (fun _ => .done) <$> Emission.append text
  | appendAll insts => (fun _ => .done) <$> Emission.appendAll insts
  | isBuffered => (fun context => .flag context.isBuffered) <$> Action.read
  | top => (fun level => .level (some level)) <$> Emission.onStack BufferStack.top
  | enclosing => (fun context => .level context.stack.enclosing?) <$> Action.read
  | emit operation => (fun _ => .done) <$> Emission.emit operation
  | prolog => (fun _ => .done) <$> Emission.prolog
  | epilog => (fun _ => .done) <$> Emission.epilog
  | stringLiterals table => (fun _ => .done) <$> Emission.stringLiterals table
  | finish table => (fun _ => .done) <$> Emission.finish table
  | beginIf cond => (fun _ => .done) <$> Emission.beginIf cond
  | beginElse => (fun _ => .done) <$> Emission.beginElse
  | endIf => (fun _ => .done) <$> Emission.endIf
  | beginWhile => (fun _ => .done) <$> Emission.beginWhile
  | loopTest cond => (fun _ => .done) <$> Emission.loopTest cond
  | endWhile => (fun _ => .done) <$> Emission.endWhile
  | reset => (fun _ => .done) <$> Action.update Context.reset
  | release => .number <$> Emission.release

end Step

/-- Performs the steps one after the other and gives what each left behind. -/
def session : List Step → Context → List (Outcome EmitError Context Answer)
  | [], _ => []
  | step :: rest, context =>
    let outcome := step.perform context
    outcome :: session rest outcome.state

end MipsBackend
