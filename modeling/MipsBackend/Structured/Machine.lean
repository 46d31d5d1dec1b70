import MipsBackend.Structured.Program

/-! # Meaning of programs

Two readings of a structured program. `Program.Runs` follows its structure. `Machine.Reaches` runs a
list of instructions one after the other, where jumps go to the place of their label. Both share a
`Machine`, which says what the other instructions do to a state and what registers hold in it.
-/

namespace MipsBackend

/-- What instructions do to states. -/
structure Machine (σ : Type) where
  /-- Effect of an instruction that leaves the flow of control alone. -/
  effect : Inst → σ → σ
  /-- What a register holds. -/
  value : Reg → σ → Int
  /-- The zero register holds zero. -/
  value_zero : ∀ state, value .zero state = 0

namespace Machine

variable {σ : Type}

/-- Position of the line that defines a label. -/
def position? (code : List Inst) (label : Label) : Option Nat := code.findIdx? fun inst => inst = .label label

/-- One step at a position of the code. Labels, directives and comments do nothing. -/
def step? (machine : Machine σ) (code : List Inst) (position : Nat) (state : σ) : Option (Nat × σ) :=
  match code[position]? with
  | none => none
  | some (.j target) => (position? code target).map fun next => (next, state)
  | some (.beq lhs rhs target) =>
    if machine.value lhs state = machine.value rhs state then
      (position? code target).map fun next => (next, state)
    else some (position + 1, state)
  | some (.label _) | some (.directive _) | some (.comment _) => some (position + 1, state)
  | some inst => some (position + 1, machine.effect inst state)

/-- A position and state that running the code from another position and state comes to. -/
inductive Reaches (machine : Machine σ) (code : List Inst) : Nat × σ → Nat × σ → Prop
  | refl {config : Nat × σ} : Reaches machine code config config
  | step {position : Nat} {state : σ} {next last : Nat × σ} :
      machine.step? code position state = some next → Reaches machine code next last →
      Reaches machine code (position, state) last

/-- Effect of instructions in sequence that leave the flow of control alone. -/
def effects (machine : Machine σ) (insts : List Inst) (state : σ) : σ :=
  insts.foldl (fun state inst => machine.effect inst state) state

end Machine

namespace Program

/-- A run of a program from one state to another, by its structure. -/
inductive Runs {σ : Type} (machine : Machine σ) : Program → σ → σ → Prop
  | skip {state : σ} : Runs machine .skip state state
  | basic {operation : Operation} {isBasic : operation.isBasic = true} {state : σ} :
      Runs machine (.basic operation isBasic) state (machine.effects operation.insts state)
  | seq {first second : Program} {before middle after : σ} :
      Runs machine first before middle → Runs machine second middle after →
      Runs machine (.seq first second) before after
  | ifTaken {cond : Reg} {body : Program} {before after : σ} :
      machine.value cond before ≠ 0 → Runs machine body before after →
      Runs machine (.ifThen cond body) before after
  | ifSkipped {cond : Reg} {body : Program} {state : σ} :
      machine.value cond state = 0 → Runs machine (.ifThen cond body) state state
  | elseFirst {cond : Reg} {first second : Program} {before after : σ} :
      machine.value cond before ≠ 0 → Runs machine first before after →
      Runs machine (.ifElse cond first second) before after
  | elseSecond {cond : Reg} {first second : Program} {before after : σ} :
      machine.value cond before = 0 → Runs machine second before after →
      Runs machine (.ifElse cond first second) before after
  | whileLeft {test : Program} {cond : Reg} {body : Program} {before after : σ} :
      Runs machine test before after → machine.value cond after = 0 →
      Runs machine (.whileLoop test cond body) before after
  | whileRepeated {test : Program} {cond : Reg} {body : Program} {before tested middle after : σ} :
      Runs machine test before tested → machine.value cond tested ≠ 0 →
      Runs machine body tested middle → Runs machine (.whileLoop test cond body) middle after →
      Runs machine (.whileLoop test cond body) before after

end Program

end MipsBackend
