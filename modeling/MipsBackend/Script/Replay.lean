import MipsBackend.Script.Names

/-! # Replaying scripts

A replay performs the requests of a script on a context. A request is first resolved, and only when
all names in it are known does the resulting task touch the context. The summary is brought up to
date after each request.
-/

namespace MipsBackend

structure Replay where
  context : Context
  names : Names := {}
  summary : Summary := {}

namespace Replay

def start (context : Context) : Replay := { context }

/-! ## Performing tasks -/

/-- Runs a step of code generation on the context of a replay. -/
def onContext {α : Type} (emission : Emission α) : Action EmitError Replay α :=
  emission.focus Replay.context fun replay context => { replay with context }

/-- Performs a task. Names are bound and unbound only after the context did its part. -/
def perform : Task → Action EmitError Replay Unit
  | .bindSlot name => do
    let reg ← onContext Emission.alloc
    Action.update fun replay => { replay with names := replay.names.bindSlot name reg }
  | .freeSlot name reg => do
    onContext (Emission.free reg)
    Action.update fun replay => { replay with names := replay.names.unbindSlot name }
  | .bindLabel name => do
    let label ← onContext Emission.newLabel
    Action.update fun replay => { replay with names := replay.names.bindLabel name label }
  | .step step => do
    let _ ← onContext step.perform

def apply (index : Nat) (request : Request) : Action ReplayError Replay Unit := do
  let replay ← Action.read
  -- An unknown name stops the request before the context is touched.
  let task ← Action.ofExcept (replay.names.resolve index request)
  (perform task).mapError (.emission index request.name)

/-- Counts an applied request in the summary. -/
def tally (replay : Replay) : Replay :=
  { replay with
    summary :=
      { replay.summary with
        requests := replay.summary.requests + 1
        maxDepth := max replay.summary.maxDepth replay.context.stack.depth
        maxLiveRegisters := max replay.summary.maxLiveRegisters replay.context.pool.outstanding } }

/-- Applies requests in order, the first of them at position `index`. -/
def applyAll : (index : Nat) → List Request → Action ReplayError Replay Unit
  | _, [] => pure ()
  | index, request :: rest => do
    Action.report (.requested index request)
    apply index request
    Action.update tally
    applyAll (index + 1) rest

/-- Completes the summary at the end of a script. -/
def conclude (strings : List String) (replay : Replay) : Replay :=
  { replay with
    summary :=
      { replay.summary with
        labelsIssued := replay.context.labels.issued
        stringLiterals := strings.length } }

/-- Replays a whole script: prolog, requests, epilog and string data. -/
def run (script : Script) : Action ReplayError Replay Unit := do
  (onContext Emission.prolog).mapError (.emission 0 "prolog")
  applyAll 0 script.requests
  (onContext (Emission.finish (StringLiterals.ofList script.strings).table)).mapError .finish
  Action.update (conclude script.strings)
  let replay ← Action.read
  Action.report (.finished replay.summary)
  let _ ← (onContext Emission.release).mapError .finish

end Replay

def Script.replay (script : Script) (options : Options) (stream : Stream) :
    Outcome ReplayError Replay Unit :=
  Replay.run script (Replay.start (Context.start options stream))

end MipsBackend
