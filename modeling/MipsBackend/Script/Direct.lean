import MipsBackend.Script.Names

/-! # Direct emission

What a script emits, told without buffers. Requests are followed with the names, the register pool,
the label supply and the open constructs alone: there are no levels, no limits and no stream. Each
request gives the fragments that are its own contribution to the program, in order.
-/

namespace MipsBackend

structure Direct where
  names : Names := {}
  pool : RegisterPool := .fresh
  labels : LabelSupply := {}
  /-- Open constructs, innermost first. -/
  constructs : List Construct := []
deriving DecidableEq

namespace Direct

def twoLabels (direct : Direct) : Label × Label × Direct :=
  let (first, labels) := direct.labels.next
  let (second, labels) := labels.next
  (first, second, { direct with labels })

def opening (direct : Direct) (construct : Construct) : Direct :=
  { direct with constructs := construct :: direct.constructs }

/-- What a step of code generation contributes, if its construct is open. -/
def step (direct : Direct) : Step → Option (List Operation × Direct)
  | .emit operation => some ([operation], direct)
  | .push construct => some ([], direct.opening construct)
  | .merge count =>
    if count < 2 || direct.constructs.length < count then none
    else some ([], { direct with constructs := direct.constructs.drop (count - 1) })
  | .close =>
    match direct.constructs with
    | [] => none
    | _ :: rest => some ([], { direct with constructs := rest })
  | .beginIf cond =>
    let (elseLabel, endLabel, direct) := direct.twoLabels
    some ([.beq cond .zero elseLabel], direct.opening (.conditional elseLabel endLabel false))
  | .beginElse =>
    match direct.constructs with
    | .conditional elseLabel endLabel false :: _ =>
      some ([.jump endLabel, .place elseLabel], direct.opening (.conditional elseLabel endLabel true))
    | _ => none
  | .endIf =>
    match direct.constructs with
    | .conditional _ endLabel true :: _ :: rest =>
      some ([.place endLabel], { direct with constructs := rest })
    | .conditional elseLabel _ false :: rest =>
      some ([.place elseLabel], { direct with constructs := rest })
    | _ => none
  | .beginWhile =>
    let (entryLabel, exitLabel, direct) := direct.twoLabels
    some ([.place entryLabel], direct.opening (.loop entryLabel exitLabel))
  | .loopTest cond =>
    match direct.constructs with
    | .loop _ exitLabel :: _ => some ([.beq cond .zero exitLabel], direct)
    | _ => none
  | .endWhile =>
    match direct.constructs with
    | .loop entryLabel exitLabel :: rest =>
      some ([.jump entryLabel, .place exitLabel], { direct with constructs := rest })
    | _ => none
  | _ => none

/-- What a task contributes. Only steps of code generation have text. -/
def perform (direct : Direct) : Task → Option (List Operation × Direct)
  | .bindSlot name =>
    let outcome := RegisterPool.allocate direct.pool
    match outcome.result with
    | .ok reg => some ([], { direct with pool := outcome.state, names := direct.names.bindSlot name reg })
    | .error _ => none
  | .freeSlot name reg =>
    let outcome := RegisterPool.free reg direct.pool
    match outcome.result with
    | .ok () => some ([], { direct with pool := outcome.state, names := direct.names.unbindSlot name })
    | .error _ => none
  | .bindLabel name =>
    let (label, labels) := direct.labels.next
    some ([], { direct with labels, names := direct.names.bindLabel name label })
  | .step step => direct.step step

/-- What a request contributes. -/
def apply (direct : Direct) (index : Nat) (request : Request) : Option (List Operation × Direct) :=
  match direct.names.resolve index request with
  | .ok task => direct.perform task
  | .error _ => none

/-- What requests contribute in order, the first of them at position `index`. -/
def applyAll (direct : Direct) : (index : Nat) → List Request → Option (List Operation × Direct)
  | _, [] => some ([], direct)
  | index, request :: rest => do
    let (own, direct) ← direct.apply index request
    let (others, direct) ← direct.applyAll (index + 1) rest
    some (own ++ others, direct)

end Direct

/-- The operations that the requests of a script come to, in order. -/
def Script.operations? (script : Script) : Option (List Operation) :=
  (({} : Direct).applyAll 0 script.requests).map Prod.fst

/-- The data section of string literals, each under the name of its position. -/
def literalSection (strings : List String) : Fragment :=
  .dataSection (strings.zipIdx.map fun entry => (literalName entry.2, entry.1))

theorem emitted_literalSection (annotate : Bool) (texts : List String) :
    (literalSection texts).emitted annotate =
      .directive ".data" :: texts.zipIdx.map fun entry => asciizLine (literalName entry.2) entry.1 := by
  cases annotate <;> simp [literalSection, Fragment.dataSection, Fragment.emitted, Fragment.remark]

/-- The fragments of a whole program: prolog, operations, epilog, string data. -/
def programFragments (operations : List Operation) (strings : List String) : List Fragment :=
  .prolog :: operations.map Operation.fragment ++ [.epilog, literalSection strings]

end MipsBackend
