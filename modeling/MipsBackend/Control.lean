import MipsBackend.Framing

/-! # Control constructs

Conditionals and loops, generated into levels so that a construct is released once its shape is
known. A conditional with two branches is laid out as

    beq cond, $zero, else
    first branch
    j end
    else:
    second branch
    end:

and a loop as

    entry:
    condition
    beq cond, $zero, exit
    body
    j entry
    exit:
-/

namespace MipsBackend.Emission

/-- The construct of the innermost level. -/
def topConstruct : Emission Construct := do
  let level ← onStack BufferStack.top
  pure level.construct

/-- Skips the first branch when `cond` is zero and opens its level. -/
def beginIf (cond : Reg) : Emission Unit := do
  let elseLabel ← newLabel
  let endLabel ← newLabel
  emit (.beq cond .zero elseLabel)
  push (.conditional elseLabel endLabel false)

/-- Ends the first branch and opens a level for the second. -/
def beginElse : Emission Unit := do
  match ← topConstruct with
  | .conditional elseLabel endLabel false =>
    -- The jump still belongs to the first branch, the label already to the second.
    emit (.jump endLabel)
    push (.conditional elseLabel endLabel true)
    emit (.place elseLabel)
  | other => Action.fail (.constructMismatch .conditional other.kind)

/-- Ends the innermost conditional, with one branch or two. -/
def endIf : Emission Unit := do
  match ← topConstruct with
  | .conditional _ endLabel true =>
    -- The level below belongs to the first branch; both become one before it is closed.
    merge 2
    let _ ← close
    emit (.place endLabel)
  | .conditional elseLabel _ false =>
    let _ ← close
    emit (.place elseLabel)
  | other => Action.fail (.constructMismatch .conditional other.kind)

/-- Opens a loop with its entry label. -/
def beginWhile : Emission Unit := do
  let entryLabel ← newLabel
  let exitLabel ← newLabel
  push (.loop entryLabel exitLabel)
  emit (.place entryLabel)

/-- The entry and exit of the innermost construct, which has to be a loop. -/
def loopLabels : Emission (Label × Label) := do
  match ← topConstruct with
  | .loop entryLabel exitLabel => pure (entryLabel, exitLabel)
  | other => Action.fail (.constructMismatch .loop other.kind)

/-- Leaves the loop when `cond` is zero. -/
def loopTest (cond : Reg) : Emission Unit := do
  let (_, exitLabel) ← loopLabels
  emit (.beq cond .zero exitLabel)

/-- Goes back to the entry, places the exit and releases the loop. -/
def endWhile : Emission Unit := do
  let (entryLabel, exitLabel) ← loopLabels
  emit (.jump entryLabel)
  emit (.place exitLabel)
  let _ ← close

end MipsBackend.Emission
