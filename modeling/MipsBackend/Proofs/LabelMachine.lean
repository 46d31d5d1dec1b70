import MipsBackend.Structured.Machine

/-! # Running located code

Facts about runs of the label machine that do not depend on where code comes from.

* `Located`: a piece of code stands at a position of a longer one.
* `Machine.ReachesIn`: runs with their number of steps. `Machine.ReachesIn.align` is the consequence of
  determinism that the backward half of a correctness proof needs: a run that gets to the end of the
  code passes through every configuration that its start reaches.
* `Machine.position?_of_located`: where labels are defined once, a jump goes to its label.
-/

namespace MipsBackend

def Located (whole : List Inst) (position : Nat) (code : List Inst) : Prop :=
  ∃ before after, whole = before ++ code ++ after ∧ before.length = position

namespace Located

variable {whole first second : List Inst} {position : Nat}

theorem self (code : List Inst) : Located code 0 code := ⟨[], [], by simp, rfl⟩

theorem left (located : Located whole position (first ++ second)) : Located whole position first := by
  obtain ⟨before, after, rfl, length⟩ := located
  exact ⟨before, second ++ after, by simp, length⟩

theorem right (located : Located whole position (first ++ second)) :
    Located whole (position + first.length) second := by
  obtain ⟨before, after, rfl, length⟩ := located
  exact ⟨before ++ first, after, by simp, by simp [length]⟩

theorem head {inst : Inst} {rest : List Inst} (located : Located whole position (inst :: rest)) :
    whole[position]? = some inst := by
  obtain ⟨before, after, rfl, rfl⟩ := located
  simp

theorem tail {inst : Inst} {rest : List Inst} (located : Located whole position (inst :: rest)) :
    Located whole (position + 1) rest := by
  have split : Located whole position ([inst] ++ rest) := located
  exact split.right

end Located

/-! ## Labels -/

def Inst.definedLabel? : Inst → Option Label
  | .label target => some target
  | _ => none

def definedLabels (code : List Inst) : List Label := code.filterMap Inst.definedLabel?

@[simp] theorem definedLabels_append (left right : List Inst) :
    definedLabels (left ++ right) = definedLabels left ++ definedLabels right :=
  List.filterMap_append

theorem Machine.position?_of_located {whole : List Inst} {position : Nat} {label : Label}
    (unique : (definedLabels whole).Nodup) (located : Located whole position [.label label]) :
    position? whole label = some position := by
  obtain ⟨before, after, rfl, rfl⟩ := located
  have absent : ∀ inst ∈ before, inst ≠ .label label := by
    rintro inst member rfl
    -- A second line for the label would define it twice.
    have defined : label ∈ definedLabels before := List.mem_filterMap.mpr ⟨_, member, rfl⟩
    simp only [definedLabels_append, List.append_assoc, List.nodup_append] at unique
    exact unique.2.2 label defined label (by simp [definedLabels, Inst.definedLabel?]) rfl
  have nothing : List.findIdx? (fun inst => decide (inst = .label label)) before = none := by
    simpa using absent
  simp [position?, List.findIdx?_append, List.findIdx?_cons, nothing]

namespace Machine

variable {σ : Type} {machine : Machine σ} {code : List Inst}

/-! ## Counted runs -/

inductive ReachesIn (machine : Machine σ) (code : List Inst) : Nat → Nat × σ → Nat × σ → Prop
  | refl {config : Nat × σ} : ReachesIn machine code 0 config config
  | step {count position : Nat} {state : σ} {next last : Nat × σ} :
      machine.step? code position state = some next → ReachesIn machine code count next last →
      ReachesIn machine code (count + 1) (position, state) last

theorem ReachesIn.reaches {count : Nat} {first last : Nat × σ}
    (counted : machine.ReachesIn code count first last) : machine.Reaches code first last := by
  induction counted with
  | refl => exact .refl
  | step steps _ ih => exact .step steps ih

theorem reaches_iff_reachesIn {first last : Nat × σ} :
    machine.Reaches code first last ↔ ∃ count, machine.ReachesIn code count first last := by
  constructor
  · intro reaches
    induction reaches with
    | refl => exact ⟨0, .refl⟩
    | step steps _ ih =>
      obtain ⟨count, rest⟩ := ih
      exact ⟨count + 1, .step steps rest⟩
  · rintro ⟨count, counted⟩
    exact counted.reaches

namespace ReachesIn

/-- No step leads on from the end of the code, so a run that gets there extends every other run. -/
theorem align {left count : Nat} {first middle : Nat × σ} {state : σ}
    (begins : machine.ReachesIn code left first middle)
    (halts : machine.ReachesIn code count first (code.length, state)) :
    left ≤ count ∧ machine.ReachesIn code (count - left) middle (code.length, state) := by
  induction begins generalizing count with
  | refl => exact ⟨Nat.zero_le _, halts⟩
  | @step left position before next middle steps _ ih =>
    -- A run that has halted takes no step; any other run takes the same first step.
    cases halts with
    | refl => simp [step?] at steps
    | @step count _ _ other _ otherSteps rest =>
      rw [steps] at otherSteps
      cases otherSteps
      obtain ⟨bound, rest⟩ := ih rest
      exact ⟨by omega, by simpa [Nat.succ_sub_succ] using rest⟩

end ReachesIn

theorem Reaches.trans {first middle last : Nat × σ} (begins : machine.Reaches code first middle)
    (ends : machine.Reaches code middle last) : machine.Reaches code first last := by
  induction begins with
  | refl => exact ends
  | step steps _ ih => exact .step steps (ih ends)

theorem Reaches.align {count : Nat} {first middle : Nat × σ} {state : σ}
    (begins : machine.Reaches code first middle)
    (halts : machine.ReachesIn code count first (code.length, state)) :
    ∃ left ≤ count, machine.ReachesIn code left middle (code.length, state) := by
  obtain ⟨taken, begins⟩ := reaches_iff_reachesIn.mp begins
  obtain ⟨_, rest⟩ := begins.align halts
  exact ⟨count - taken, Nat.sub_le _ _, rest⟩

/-! ## Code in a straight line -/

end Machine

def Inst.isJump : Inst → Bool
  | .j _ | .beq _ _ _ => true
  | _ => false

namespace Machine

variable {σ : Type} {machine : Machine σ} {code : List Inst} {position : Nat} {state : σ}

/-- The state after an instruction that does not jump. -/
def pass (machine : Machine σ) (state : σ) : Inst → σ
  | .label _ | .directive _ | .comment _ => state
  | inst => machine.effect inst state

theorem step?_of_not_isJump {inst : Inst} (fetched : code[position]? = some inst)
    (straight : inst.isJump = false) :
    machine.step? code position state = some (position + 1, machine.pass state inst) := by
  cases inst with
  | j target | beq lhs rhs target => cases straight
  | _ => simp [step?, fetched, pass]

theorem reaches_straight (machine : Machine σ) (state : σ) {insts : List Inst}
    (located : Located code position insts)
    (straight : ∀ inst ∈ insts, inst.isJump = false) :
    machine.Reaches code (position, state) (position + insts.length, insts.foldl machine.pass state) := by
  induction insts generalizing position state with
  | nil => exact .refl
  | cons inst rest ih =>
    have others := ih (machine.pass state inst) located.tail
      (fun other member => straight other (List.mem_cons_of_mem _ member))
    rw [List.length_cons, List.foldl_cons, Nat.add_comm rest.length, ← Nat.add_assoc]
    exact .step (step?_of_not_isJump located.head (straight inst (List.mem_cons_self ..))) others

/-! ## Code of operations -/

end Machine

/-- The instructions of an operation, after the comment that annotation adds. -/
def Operation.code (annotate : Bool) (operation : Operation) : List Inst :=
  operation.fragment.emitted annotate

theorem Operation.code_eq (annotate : Bool) (operation : Operation) :
    ∃ remark, (∀ inst ∈ remark, ∃ note, inst = .comment note) ∧
      operation.code annotate = remark ++ operation.insts := by
  refine ⟨operation.fragment.remark annotate, ?_, rfl⟩
  intro inst member
  unfold Fragment.remark at member
  split at member
  next note _ => exact ⟨note, List.mem_singleton.mp member⟩
  next => cases member

@[simp] theorem Operation.code_place (annotate : Bool) (label : Label) :
    (Operation.place label).code annotate = [.label label] := by
  cases annotate <;> rfl

namespace Machine

variable {σ : Type} {machine : Machine σ} {code : List Inst} {position : Nat} {state : σ}

theorem reaches_remark {remark : List Inst} (located : Located code position remark)
    (comments : ∀ inst ∈ remark, ∃ note, inst = .comment note) :
    machine.Reaches code (position, state) (position + remark.length, state) := by
  have straight : ∀ inst ∈ remark, inst.isJump = false := by
    intro inst member
    obtain ⟨note, rfl⟩ := comments inst member
    rfl
  have idle : remark.foldl machine.pass state = state := by
    clear located straight
    induction remark with
    | nil => rfl
    | cons inst rest ih =>
      obtain ⟨note, rfl⟩ := comments inst (List.mem_cons_self ..)
      exact ih fun other member => comments other (List.mem_cons_of_mem _ member)
  simpa [idle] using reaches_straight machine state located straight

theorem reaches_basic {annotate : Bool} {operation : Operation} (basic : operation.isBasic = true)
    (located : Located code position (operation.code annotate)) :
    machine.Reaches code (position, state)
      (position + (operation.code annotate).length, machine.effects operation.insts state) := by
  obtain ⟨remark, comments, split⟩ := operation.code_eq annotate
  rw [split] at located ⊢
  -- Only the three operations that are not basic jump or define a label.
  have straight : ∀ inst ∈ operation.insts, inst.isJump = false := by
    cases operation with
    | jump target | beq lhs rhs target | place target => cases basic
    | _ => simp [Operation.insts, Service.call, Inst.isJump]
  have effects : operation.insts.foldl machine.pass state = machine.effects operation.insts state := by
    cases operation with
    | jump target | beq lhs rhs target | place target => cases basic
    | _ => rfl
  have runs := reaches_straight machine state located.right straight
  rw [effects, Nat.add_assoc, ← List.length_append] at runs
  exact (reaches_remark located.left comments).trans runs

theorem reachesIn_label {label : Label} (located : Located code position [.label label]) :
    machine.ReachesIn code 1 (position, state) (position + 1, state) :=
  .step (step?_of_not_isJump located.head rfl) .refl

theorem reaches_past_label (machine : Machine σ) (state : σ) {label : Label} {next : Nat}
    (located : Located code position [.label label]) (follows : position + 1 = next) :
    machine.Reaches code (position, state) (next, state) := by
  rw [← follows]
  exact (reachesIn_label located).reaches

theorem reaches_branch_past {annotate : Bool} {cond : Reg} {target : Label}
    (nonzero : machine.value cond state ≠ 0)
    (located : Located code position ((Operation.beq cond .zero target).code annotate)) :
    machine.Reaches code (position, state)
      (position + ((Operation.beq cond .zero target).code annotate).length, state) := by
  obtain ⟨remark, comments, split⟩ := (Operation.beq cond .zero target).code_eq annotate
  rw [split] at located ⊢
  have falls : machine.step? code (position + remark.length) state =
      some (position + remark.length + 1, state) := by
    simp [step?, located.right.head, machine.value_zero, nonzero]
  rw [List.length_append, ← Nat.add_assoc]
  exact (reaches_remark located.left comments).trans (.step falls .refl)

theorem reaches_branch_taken {annotate : Bool} {cond : Reg} {target : Label} {destination : Nat}
    (zero : machine.value cond state = 0) (found : position? code target = some destination)
    (located : Located code position ((Operation.beq cond .zero target).code annotate)) :
    machine.Reaches code (position, state) (destination, state) := by
  obtain ⟨remark, comments, split⟩ := (Operation.beq cond .zero target).code_eq annotate
  rw [split] at located
  have jumps : machine.step? code (position + remark.length) state = some (destination, state) := by
    simp [step?, located.right.head, machine.value_zero, zero, found]
  exact (reaches_remark located.left comments).trans (.step jumps .refl)

theorem reaches_jump {annotate : Bool} {target : Label} {destination : Nat}
    (found : position? code target = some destination)
    (located : Located code position ((Operation.jump target).code annotate)) :
    machine.Reaches code (position, state) (destination, state) := by
  obtain ⟨remark, comments, split⟩ := (Operation.jump target).code_eq annotate
  rw [split] at located
  have jumps : machine.step? code (position + remark.length) state = some (destination, state) := by
    simp [step?, located.right.head, found]
  exact (reaches_remark located.left comments).trans (.step jumps .refl)

end Machine

end MipsBackend
