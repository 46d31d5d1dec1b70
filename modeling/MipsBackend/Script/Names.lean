import MipsBackend.Script.Error
import MipsBackend.Script.Request
import MipsBackend.Session

/-! # Names in scripts

Scripts name registers by slots and labels by names of their own. `Names.resolve` looks up every name
in a request before anything is done: the resulting task holds registers and labels only.
-/

namespace MipsBackend

/-- Values bound to names, the latest binding first. -/
abbrev Bindings (α : Type) : Type := List (String × α)

namespace Bindings

variable {α : Type}

def get? (bindings : Bindings α) (name : String) : Option α := bindings.lookup name

def bind (bindings : Bindings α) (name : String) (value : α) : Bindings α := (name, value) :: bindings

def unbind (bindings : Bindings α) (name : String) : Bindings α :=
  bindings.filter fun binding => binding.1 != name

end Bindings

/-- What the names in a script stand for now. -/
structure Names where
  slots : Bindings Reg := []
  labels : Bindings Label := []
deriving DecidableEq

/-- A request with every name looked up. -/
inductive Task
  | bindSlot (name : String)
  /-- Gives the register of a slot back. -/
  | freeSlot (name : String) (reg : Reg)
  | bindLabel (name : String)
  | step (step : Step)

namespace Names

def bindSlot (names : Names) (name : String) (reg : Reg) : Names :=
  { names with slots := names.slots.bind name reg }

def unbindSlot (names : Names) (name : String) : Names :=
  { names with slots := names.slots.unbind name }

def bindLabel (names : Names) (name : String) (label : Label) : Names :=
  { names with labels := names.labels.bind name label }

/-- The register a name stands for: a fixed register if it has the sigil, a slot otherwise. -/
def register (names : Names) (index : Nat) (name : String) : Except ReplayError Reg :=
  match if Reg.hasSigil name then Reg.ofName? name else names.slots.get? name with
  | some reg => .ok reg
  | none => .error (.unknownRegister index name)

def label (names : Names) (index : Nat) (name : String) : Except ReplayError Label :=
  match names.labels.get? name with
  | some label => .ok label
  | none => .error (.unknownLabel index name)

def operator (index : Nat) (name : String) : Except ReplayError Operator :=
  match Operator.ofMnemonic? name with
  | some operator => .ok operator
  | none => .error (.unknownOperator index name)

def holder? (names : Names) (reg : Reg) : Option String :=
  (List.find? (fun binding => binding.2 == reg) names.slots).map Prod.fst

/-- The task of giving back what a name stands for. A register that a slot holds is not given back
under its own name. -/
def freeTask (names : Names) (index : Nat) (name : String) : Except ReplayError Task := do
  let reg ← names.register index name
  match if Reg.hasSigil name then names.holder? reg else none with
  | some slot => .error (.registerHeld index name slot)
  | none => .ok (.freeSlot name reg)

/-- A request with every name looked up, operators first, then registers and labels as written. -/
def resolve (names : Names) (index : Nat) : Request → Except ReplayError Task
  | .alloc name =>
    if (names.slots.get? name).isSome then .error (.slotInUse index name)
    else .ok (.bindSlot name)
  | .free name => names.freeTask index name
  | .label name => .ok (.bindLabel name)
  | .place target => do
    let target ← names.label index target
    .ok (.step (.emit (.place target)))
  | .binop operatorName dst lhs rhs => do
    let operator ← operator index operatorName
    let dst ← names.register index dst
    let lhs ← names.register index lhs
    let rhs ← names.register index rhs
    .ok (.step (.emit (.op operator dst lhs rhs)))
  | .binopImm operatorName dst src value => do
    let operator ← operator index operatorName
    let dst ← names.register index dst
    let src ← names.register index src
    .ok (.step (.emit (.opImm operator dst src value)))
  | .lw dst base offset => do
    let dst ← names.register index dst
    let base ← names.register index base
    .ok (.step (.emit (.lw dst base offset)))
  | .sw src base offset => do
    let src ← names.register index src
    let base ← names.register index base
    .ok (.step (.emit (.sw src base offset)))
  | .li dst value => do
    let dst ← names.register index dst
    .ok (.step (.emit (.li dst value)))
  | .la dst symbol => do
    let dst ← names.register index dst
    .ok (.step (.emit (.la dst symbol)))
  | .jump target => do
    let target ← names.label index target
    .ok (.step (.emit (.jump target)))
  | .beq lhs rhs target => do
    let lhs ← names.register index lhs
    let rhs ← names.register index rhs
    let target ← names.label index target
    .ok (.step (.emit (.beq lhs rhs target)))
  | .move dst src => do
    let dst ← names.register index dst
    let src ← names.register index src
    .ok (.step (.emit (.move dst src)))
  | .writeNewline => .ok (.step (.emit .writeNewline))
  | .writeInt value => .ok (.step (.emit (.writeInt value)))
  | .writeReg reg => do
    let reg ← names.register index reg
    .ok (.step (.emit (.writeReg reg)))
  | .writeString reg => do
    let reg ← names.register index reg
    .ok (.step (.emit (.writeString reg)))
  | .readInt dst => do
    let dst ← names.register index dst
    .ok (.step (.emit (.readInt dst)))
  | .pushIf elseLabel endLabel => do
    let elseLabel ← names.label index elseLabel
    let endLabel ← names.label index endLabel
    .ok (.step (.push (.conditional elseLabel endLabel false)))
  | .pushElse elseLabel endLabel => do
    let elseLabel ← names.label index elseLabel
    let endLabel ← names.label index endLabel
    .ok (.step (.push (.conditional elseLabel endLabel true)))
  | .pushLoop entryLabel exitLabel => do
    let entryLabel ← names.label index entryLabel
    let exitLabel ← names.label index exitLabel
    .ok (.step (.push (.loop entryLabel exitLabel)))
  | .merge levels => .ok (.step (.merge levels.toNat))
  | .close => .ok (.step .close)
  | .beginIf cond => do
    let cond ← names.register index cond
    .ok (.step (.beginIf cond))
  | .beginElse => .ok (.step .beginElse)
  | .endIf => .ok (.step .endIf)
  | .beginWhile => .ok (.step .beginWhile)
  | .loopTest cond => do
    let cond ← names.register index cond
    .ok (.step (.loopTest cond))
  | .endWhile => .ok (.step .endWhile)

end Names

end MipsBackend
