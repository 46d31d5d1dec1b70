import MipsBackend.Proofs.DirectEmission
import MipsBackend.Proofs.LabelMachine

/-! # Generated code means what the program means

* `Program.emit_adds`: generating a program adds its operations, whatever levels they pass through.
* `Program.reaches_of_runs`: the code of a program, wherever it stands, follows every structured run.
* `Program.runs_of_reachesIn`: a run of the code that gets to its end is a structured run.

Both directions use the same steps of the code: how a construct is entered, left and repeated. The forward
direction composes them. The backward direction cuts them off the front of a run that halts.
-/

namespace MipsBackend

/-! ## Generating a program -/

theorem Program.emit_adds {program : Program} {context after : Context} {direct : Direct} {value : Unit}
    (tracks : context.Tracks direct) (yields : program.emit.Yields context value after) :
    context.Adds (program.operations direct.labels.issued)
      { direct with labels := ⟨direct.labels.issued + program.labelCount⟩ } after := by
  -- The counter of direct emission tells each part where its labels start.
  induction program generalizing context after direct value with
  | skip =>
    obtain ⟨_, rfl⟩ := Action.yields_pure_iff.mp yields
    exact tracks.refl
  | basic operation isBasic =>
    obtain ⟨_, rfl⟩ := Emission.emit_yields yields
    exact tracks.refl.emitted operation
  | seq first second firstAdds secondAdds =>
    obtain ⟨_, between, firstYields, secondYields⟩ := Action.yields_bind_iff.mp yields
    have begun := firstAdds tracks firstYields
    have ended := begun.trans (secondAdds begun.tracks secondYields)
    simpa [Program.operations, Program.labelCount, Nat.add_assoc] using ended
  | ifThen cond body bodyAdds =>
    simp only [Program.emit, Action.yields_bind_iff] at yields
    obtain ⟨_, entered, begins, _, filled, bodyYields, ends⟩ := yields
    obtain ⟨_, _, opens, _, begun⟩ := tracks.beginIf begins
    cases opens
    have inside := begun.trans (bodyAdds begun.tracks bodyYields)
    obtain ⟨_, _, closes, _, ended⟩ := inside.tracks.endIf ends
    cases closes
    have whole := inside.trans ended
    simpa [Program.operations, Program.labelCount, Direct.opening, LabelSupply.next, LabelSupply.peek,
      Nat.add_assoc] using whole
  | ifElse cond first second firstAdds secondAdds =>
    simp only [Program.emit, Action.yields_bind_iff] at yields
    obtain ⟨_, entered, begins, _, filled, firstYields, _, switched, switches, _, refilled, secondYields, ends⟩ := yields
    obtain ⟨_, _, opens, _, begun⟩ := tracks.beginIf begins
    cases opens
    have inside := begun.trans (firstAdds begun.tracks firstYields)
    obtain ⟨_, _, turns, _, turned⟩ := inside.tracks.beginElse switches
    cases turns
    have beyond := inside.trans turned
    have twice := beyond.trans (secondAdds beyond.tracks secondYields)
    obtain ⟨_, _, closes, _, ended⟩ := twice.tracks.endIf ends
    cases closes
    have whole := twice.trans ended
    simpa [Program.operations, Program.labelCount, Direct.opening, LabelSupply.next, LabelSupply.peek,
      Nat.add_assoc] using whole
  | whileLoop test cond body testAdds bodyAdds =>
    simp only [Program.emit, Action.yields_bind_iff] at yields
    obtain ⟨_, entered, begins, _, tested, testYields, _, decided, decides, _, filled, bodyYields, ends⟩ := yields
    obtain ⟨_, _, opens, _, begun⟩ := tracks.beginWhile begins
    cases opens
    have inside := begun.trans (testAdds begun.tracks testYields)
    obtain ⟨_, _, chooses, _, chosen⟩ := inside.tracks.loopTest decides
    cases chooses
    have beyond := inside.trans chosen
    have twice := beyond.trans (bodyAdds beyond.tracks bodyYields)
    obtain ⟨_, _, closes, _, ended⟩ := twice.tracks.endWhile ends
    cases closes
    have whole := twice.trans ended
    simpa [Program.operations, Program.labelCount, Direct.opening, LabelSupply.next, LabelSupply.peek,
      Nat.add_assoc] using whole

/-! ## The code of a program -/

namespace Program

variable {annotate : Bool} {base : Nat}

theorem code_eq_flatMap (program : Program) :
    program.code annotate base = (program.operations base).flatMap (Operation.code annotate) := by
  simp only [code, Fragment.allEmitted, List.flatMap_map]
  rfl

theorem code_basic {operation : Operation} {isBasic : operation.isBasic = true} :
    (basic operation isBasic).code annotate base = operation.code annotate := by
  simp [code_eq_flatMap, operations]

theorem code_seq {first second : Program} :
    (seq first second).code annotate base =
      first.code annotate base ++ second.code annotate (base + first.labelCount) := by
  simp [code_eq_flatMap, operations]

theorem code_ifThen {cond : Reg} {body : Program} :
    (ifThen cond body).code annotate base =
      (Operation.beq cond .zero ⟨base⟩).code annotate ++ (body.code annotate (base + 2) ++ [.label ⟨base⟩]) := by
  simp [code_eq_flatMap, operations]

theorem code_ifElse {cond : Reg} {first second : Program} :
    (ifElse cond first second).code annotate base =
      (Operation.beq cond .zero ⟨base⟩).code annotate ++ (first.code annotate (base + 2) ++
        ((Operation.jump ⟨base + 1⟩).code annotate ++ ([.label ⟨base⟩] ++
          (second.code annotate (base + 2 + first.labelCount) ++ [.label ⟨base + 1⟩])))) := by
  simp [code_eq_flatMap, operations]

theorem code_whileLoop {test : Program} {cond : Reg} {body : Program} :
    (whileLoop test cond body).code annotate base =
      [.label ⟨base⟩] ++ (test.code annotate (base + 2) ++
        ((Operation.beq cond .zero ⟨base + 1⟩).code annotate ++
          (body.code annotate (base + 2 + test.labelCount) ++
            ((Operation.jump ⟨base⟩).code annotate ++ [.label ⟨base + 1⟩])))) := by
  simp [code_eq_flatMap, operations]

end Program

/-! ## Each label is defined once -/

theorem definedLabels_of_basic {annotate : Bool} {operation : Operation} (basic : operation.isBasic = true) :
    definedLabels (operation.code annotate) = [] := by
  cases operation with
  | jump target | beq lhs rhs target | place target => cases basic
  | _ => cases annotate <;> rfl

@[simp] theorem definedLabels_beq (annotate : Bool) (lhs rhs : Reg) (target : Label) :
    definedLabels ((Operation.beq lhs rhs target).code annotate) = [] := by
  cases annotate <;> rfl

@[simp] theorem definedLabels_jump (annotate : Bool) (target : Label) :
    definedLabels ((Operation.jump target).code annotate) = [] := by
  cases annotate <;> rfl

@[simp] theorem definedLabels_label (target : Label) : definedLabels [.label target] = [target] := rfl

namespace Program

variable {annotate : Bool} {base : Nat}

theorem bounds_of_definedLabels {program : Program} {label : Label}
    (defined : label ∈ definedLabels (program.code annotate base)) :
    base ≤ label.id ∧ label.id < base + program.labelCount := by
  induction program generalizing base with
  | skip => cases defined
  | basic operation isBasic => simp [code_basic, definedLabels_of_basic isBasic] at defined
  | seq first second firstBounds secondBounds =>
    simp only [code_seq, definedLabels_append, List.mem_append] at defined
    simp only [labelCount]
    obtain inFirst | inSecond := defined
    · have bounds := firstBounds inFirst
      omega
    · have bounds := secondBounds inSecond
      omega
  | ifThen cond body bodyBounds =>
    simp only [code_ifThen, definedLabels_append, definedLabels_beq, definedLabels_label, List.nil_append,
      List.mem_append, List.mem_singleton] at defined
    simp only [labelCount]
    obtain inBody | rfl := defined
    · have bounds := bodyBounds inBody
      omega
    · show base ≤ base ∧ base < _
      omega
  | ifElse cond first second firstBounds secondBounds =>
    simp only [code_ifElse, definedLabels_append, definedLabels_beq, definedLabels_jump, definedLabels_label,
      List.nil_append, List.mem_append, List.mem_singleton] at defined
    simp only [labelCount]
    obtain inFirst | rfl | inSecond | rfl := defined
    · have bounds := firstBounds inFirst
      omega
    · show base ≤ base ∧ base < _
      omega
    · have bounds := secondBounds inSecond
      omega
    · show base ≤ base + 1 ∧ base + 1 < _
      omega
  | whileLoop test cond body testBounds bodyBounds =>
    simp only [code_whileLoop, definedLabels_append, definedLabels_beq, definedLabels_jump, definedLabels_label,
      List.nil_append, List.mem_append, List.mem_singleton] at defined
    simp only [labelCount]
    obtain rfl | inTest | inBody | rfl := defined
    · show base ≤ base ∧ base < _
      omega
    · have bounds := testBounds inTest
      omega
    · have bounds := bodyBounds inBody
      omega
    · show base ≤ base + 1 ∧ base + 1 < _
      omega

theorem not_definedLabels_of_lt {program : Program} {number : Nat} (earlier : number < base) :
    ⟨number⟩ ∉ definedLabels (program.code annotate base) := by
  intro defined
  have bound : base ≤ number := (bounds_of_definedLabels defined).1
  omega

theorem not_definedLabels_of_le {first second : Program} {later : Nat} {label : Label}
    (follows : base + first.labelCount ≤ later) (inFirst : label ∈ definedLabels (first.code annotate base)) :
    label ∉ definedLabels (second.code annotate later) := by
  intro inSecond
  have early := bounds_of_definedLabels inFirst
  have late := bounds_of_definedLabels inSecond
  omega

/-- The labels of a construct come before those of its parts, and its parts take one range after the other. -/
theorem nodup_definedLabels (program : Program) : (definedLabels (program.code annotate base)).Nodup := by
  induction program generalizing base with
  | skip => exact List.nodup_nil
  | basic operation isBasic => simp [code_basic, definedLabels_of_basic isBasic]
  | seq first second firstNodup secondNodup =>
    simp only [code_seq, definedLabels_append, List.nodup_append]
    refine ⟨firstNodup, secondNodup, ?_⟩
    rintro label inFirst _ inSecond rfl
    exact not_definedLabels_of_le (Nat.le_refl _) inFirst inSecond
  | ifThen cond body bodyNodup =>
    simp only [code_ifThen, definedLabels_append, definedLabels_beq, definedLabels_label, List.nil_append,
      List.nodup_append, List.mem_singleton]
    refine ⟨bodyNodup, by simp, ?_⟩
    rintro _ inBody _ rfl rfl
    exact not_definedLabels_of_lt (by omega) inBody
  | ifElse cond first second firstNodup secondNodup =>
    simp only [code_ifElse, definedLabels_append, definedLabels_beq, definedLabels_jump, definedLabels_label,
      List.nil_append, List.nodup_append, List.mem_append, List.mem_singleton]
    refine ⟨firstNodup, ⟨by simp, ⟨secondNodup, by simp, ?_⟩, ?_⟩, ?_⟩
    · rintro _ inSecond _ rfl rfl
      exact not_definedLabels_of_lt (by omega) inSecond
    · rintro _ rfl label (inSecond | rfl)
      · rintro rfl
        exact not_definedLabels_of_lt (by omega) inSecond
      · simp
    · rintro _ inFirst _ (rfl | inSecond | rfl) rfl
      · exact not_definedLabels_of_lt (by omega) inFirst
      · exact not_definedLabels_of_le (Nat.le_refl _) inFirst inSecond
      · exact not_definedLabels_of_lt (by omega) inFirst
  | whileLoop test cond body testNodup bodyNodup =>
    simp only [code_whileLoop, definedLabels_append, definedLabels_beq, definedLabels_jump, definedLabels_label,
      List.nil_append, List.nodup_append, List.mem_append, List.mem_singleton]
    refine ⟨by simp, ⟨testNodup, ⟨bodyNodup, by simp, ?_⟩, ?_⟩, ?_⟩
    · rintro _ inBody _ rfl rfl
      exact not_definedLabels_of_lt (by omega) inBody
    · rintro _ inTest _ (inBody | rfl) rfl
      · exact not_definedLabels_of_le (Nat.le_refl _) inTest inBody
      · exact not_definedLabels_of_lt (by omega) inTest
    · rintro _ rfl label (inTest | inBody | rfl)
      · rintro rfl
        exact not_definedLabels_of_lt (by omega) inTest
      · rintro rfl
        exact not_definedLabels_of_lt (by omega) inBody
      · simp

/-! ## How constructs are entered, left and repeated -/

variable {σ : Type} {machine : Machine σ} {whole : List Inst} {position : Nat}

theorem reaches_ifThen (machine : Machine σ) {cond : Reg} {body : Program} {finish : Nat}
    (unique : (definedLabels whole).Nodup)
    (located : Located whole position ((ifThen cond body).code annotate base))
    (ends : position + ((ifThen cond body).code annotate base).length = finish) :
    ∃ inner, Located whole inner (body.code annotate (base + 2)) ∧
      (∀ state, machine.value cond state ≠ 0 → machine.Reaches whole (position, state) (inner, state)) ∧
      (∀ state, machine.value cond state = 0 → machine.Reaches whole (position, state) (finish, state)) ∧
      (∀ state, machine.Reaches whole
        (inner + (body.code annotate (base + 2)).length, state) (finish, state)) := by
  rw [code_ifThen] at located ends
  -- The label behind the body is where a skipped body and a finished one both arrive.
  have elseAt := located.right.right
  simp only [List.length_append, List.length_singleton] at ends
  have passes (state : σ) : machine.Reaches whole (_, state) (finish, state) :=
    machine.reaches_past_label state elseAt (by omega)
  refine ⟨_, located.right.left, ?_, ?_, passes⟩
  · intro state nonzero
    exact Machine.reaches_branch_past nonzero located.left
  · intro state zero
    have found := Machine.position?_of_located unique elseAt
    exact (Machine.reaches_branch_taken zero found located.left).trans (passes state)

theorem reaches_ifElse (machine : Machine σ) {cond : Reg} {first second : Program} {finish : Nat}
    (unique : (definedLabels whole).Nodup)
    (located : Located whole position ((ifElse cond first second).code annotate base))
    (ends : position + ((ifElse cond first second).code annotate base).length = finish) :
    ∃ firstAt secondAt, Located whole firstAt (first.code annotate (base + 2)) ∧
      Located whole secondAt (second.code annotate (base + 2 + first.labelCount)) ∧
      (∀ state, machine.value cond state ≠ 0 → machine.Reaches whole (position, state) (firstAt, state)) ∧
      (∀ state, machine.value cond state = 0 → machine.Reaches whole (position, state) (secondAt, state)) ∧
      (∀ state, machine.Reaches whole
        (firstAt + (first.code annotate (base + 2)).length, state) (finish, state)) ∧
      (∀ state, machine.Reaches whole
        (secondAt + (second.code annotate (base + 2 + first.labelCount)).length, state) (finish, state)) := by
  rw [code_ifElse] at located ends
  -- The first part jumps past the second to the last label; a zero condition goes to the label between them.
  have jumpAt := located.right.right.left
  have elseAt := located.right.right.right.left
  have endAt := located.right.right.right.right.right
  simp only [List.length_append, List.length_singleton] at ends
  have passes (state : σ) : machine.Reaches whole (_, state) (finish, state) :=
    machine.reaches_past_label state endAt (by rw [List.length_singleton]; omega)
  refine ⟨_, _, located.right.left, located.right.right.right.right.left, ?_, ?_, ?_, passes⟩
  · intro state nonzero
    exact Machine.reaches_branch_past nonzero located.left
  · intro state zero
    have found := Machine.position?_of_located unique elseAt
    exact (Machine.reaches_branch_taken zero found located.left).trans (machine.reaches_past_label state elseAt rfl)
  · intro state
    have found := Machine.position?_of_located unique endAt
    exact (Machine.reaches_jump found jumpAt).trans (passes state)

theorem reaches_whileLoop (machine : Machine σ) {test : Program} {cond : Reg} {body : Program} {finish : Nat}
    (unique : (definedLabels whole).Nodup)
    (located : Located whole position ((whileLoop test cond body).code annotate base))
    (ends : position + ((whileLoop test cond body).code annotate base).length = finish) :
    ∃ testAt bodyAt, Located whole testAt (test.code annotate (base + 2)) ∧
      Located whole bodyAt (body.code annotate (base + 2 + test.labelCount)) ∧
      (∀ state, machine.ReachesIn whole 1 (position, state) (testAt, state)) ∧
      (∀ state, machine.value cond state ≠ 0 → machine.Reaches whole
        (testAt + (test.code annotate (base + 2)).length, state) (bodyAt, state)) ∧
      (∀ state, machine.value cond state = 0 → machine.Reaches whole
        (testAt + (test.code annotate (base + 2)).length, state) (finish, state)) ∧
      (∀ state, machine.Reaches whole
        (bodyAt + (body.code annotate (base + 2 + test.labelCount)).length, state) (position, state)) := by
  rw [code_whileLoop] at located ends
  -- The loop is left only where its condition is tested; the jump at its end goes back to the entry.
  have branchAt := located.right.right.left
  have jumpAt := located.right.right.right.right.left
  have exitAt := located.right.right.right.right.right
  refine ⟨_, _, located.right.left, located.right.right.right.left, ?_, ?_, ?_, ?_⟩
  · intro state
    exact Machine.reachesIn_label located.left
  · intro state nonzero
    exact Machine.reaches_branch_past nonzero branchAt
  · intro state zero
    have found := Machine.position?_of_located unique exitAt
    refine (Machine.reaches_branch_taken zero found branchAt).trans (machine.reaches_past_label state exitAt ?_)
    simp only [List.length_append, List.length_singleton] at ends ⊢
    omega
  · intro state
    have found := Machine.position?_of_located unique located.left
    exact Machine.reaches_jump found jumpAt

/-! ## Both directions -/

theorem reaches_of_runs {program : Program} {before after : σ} (unique : (definedLabels whole).Nodup)
    (located : Located whole position (program.code annotate base))
    (runs : program.Runs machine before after) :
    machine.Reaches whole (position, before) (position + (program.code annotate base).length, after) := by
  induction runs generalizing position base with
  | skip => exact .refl
  | @basic operation isBasic state =>
    rw [code_basic] at located ⊢
    exact Machine.reaches_basic isBasic located
  | seq _ _ firstReaches secondReaches =>
    rw [code_seq] at located ⊢
    have begun := firstReaches located.left
    have ended := secondReaches located.right
    rw [List.length_append, ← Nat.add_assoc]
    exact begun.trans ended
  | ifTaken nonzero _ bodyReaches =>
    obtain ⟨inner, bodyAt, enters, _, leaves⟩ := reaches_ifThen machine unique located rfl
    exact ((enters _ nonzero).trans (bodyReaches bodyAt)).trans (leaves _)
  | ifSkipped zero =>
    obtain ⟨_, _, _, skips, _⟩ := reaches_ifThen machine unique located rfl
    exact skips _ zero
  | elseFirst nonzero _ firstReaches =>
    obtain ⟨_, _, firstAt, _, enters, _, leaves, _⟩ := reaches_ifElse machine unique located rfl
    exact ((enters _ nonzero).trans (firstReaches firstAt)).trans (leaves _)
  | elseSecond zero _ secondReaches =>
    obtain ⟨_, _, _, secondAt, _, enters, _, leaves⟩ := reaches_ifElse machine unique located rfl
    exact ((enters _ zero).trans (secondReaches secondAt)).trans (leaves _)
  | whileLeft _ zero testReaches =>
    obtain ⟨_, _, testAt, _, enters, _, leaves, _⟩ := reaches_whileLoop machine unique located rfl
    exact ((enters _).reaches.trans (testReaches testAt)).trans (leaves _ zero)
  | whileRepeated _ nonzero _ _ testReaches bodyReaches loopReaches =>
    obtain ⟨_, _, testAt, bodyAt, enters, goes, _, repeats⟩ := reaches_whileLoop machine unique located rfl
    have tested := ((enters _).reaches.trans (testReaches testAt)).trans (goes _ nonzero)
    have returned := (tested.trans (bodyReaches bodyAt)).trans (repeats _)
    exact returned.trans (loopReaches located)

/-- A halting run that starts at the code of a program gets past it, and does so by a run of the program. -/
theorem runs_of_reachesIn {program : Program} {count : Nat} {before last : σ}
    (unique : (definedLabels whole).Nodup)
    (located : Located whole position (program.code annotate base))
    (halts : machine.ReachesIn whole count (position, before) (whole.length, last)) :
    ∃ after, ∃ left ≤ count, program.Runs machine before after ∧
      machine.ReachesIn whole left (position + (program.code annotate base).length, after) (whole.length, last) := by
  induction program generalizing position base count before with
  | skip => exact ⟨before, count, Nat.le_refl _, .skip, halts⟩
  | basic operation isBasic =>
    rw [code_basic] at located ⊢
    obtain ⟨left, fewer, rest⟩ := (Machine.reaches_basic isBasic located).align halts
    exact ⟨_, left, fewer, .basic, rest⟩
  | seq first second firstRuns secondRuns =>
    rw [code_seq] at located ⊢
    obtain ⟨middle, more, fewer, runsFirst, rest⟩ := firstRuns located.left halts
    obtain ⟨after, left, fewest, runsSecond, rest⟩ := secondRuns located.right rest
    refine ⟨after, left, by omega, .seq runsFirst runsSecond, ?_⟩
    rwa [List.length_append, ← Nat.add_assoc]
  | ifThen cond body bodyRuns =>
    obtain ⟨_, bodyAt, enters, skips, leaves⟩ := reaches_ifThen machine unique located rfl
    by_cases zero : machine.value cond before = 0
    · obtain ⟨left, fewer, rest⟩ := (skips _ zero).align halts
      exact ⟨before, left, fewer, .ifSkipped zero, rest⟩
    · obtain ⟨inside, _, rest⟩ := (enters _ zero).align halts
      obtain ⟨after, beyond, _, runsBody, rest⟩ := bodyRuns bodyAt rest
      obtain ⟨left, _, rest⟩ := (leaves _).align rest
      exact ⟨after, left, by omega, .ifTaken zero runsBody, rest⟩
  | ifElse cond first second firstRuns secondRuns =>
    obtain ⟨_, _, firstAt, secondAt, entersFirst, entersSecond, leavesFirst, leavesSecond⟩ :=
      reaches_ifElse machine unique located rfl
    by_cases zero : machine.value cond before = 0
    · obtain ⟨inside, _, rest⟩ := (entersSecond _ zero).align halts
      obtain ⟨after, beyond, _, runsSecond, rest⟩ := secondRuns secondAt rest
      obtain ⟨left, _, rest⟩ := (leavesSecond _).align rest
      exact ⟨after, left, by omega, .elseSecond zero runsSecond, rest⟩
    · obtain ⟨inside, _, rest⟩ := (entersFirst _ zero).align halts
      obtain ⟨after, beyond, _, runsFirst, rest⟩ := firstRuns firstAt rest
      obtain ⟨left, _, rest⟩ := (leavesFirst _).align rest
      exact ⟨after, left, by omega, .elseFirst zero runsFirst, rest⟩
  | whileLoop test cond body testRuns bodyRuns =>
    obtain ⟨_, _, testAt, bodyAt, enters, goes, leaves, repeats⟩ := reaches_whileLoop machine unique located rfl
    -- A round takes the step past the entry label at least, so the rest of the run is shorter.
    induction count using Nat.strongRecOn generalizing before with
    | ind count shorter =>
      obtain ⟨positive, rest⟩ := (enters before).align halts
      obtain ⟨tested, beyond, _, runsTest, rest⟩ := testRuns testAt rest
      by_cases zero : machine.value cond tested = 0
      · obtain ⟨left, _, rest⟩ := (leaves _ zero).align rest
        exact ⟨tested, left, by omega, .whileLeft runsTest zero, rest⟩
      · obtain ⟨inside, _, rest⟩ := (goes _ zero).align rest
        obtain ⟨middle, outside, _, runsBody, rest⟩ := bodyRuns bodyAt rest
        obtain ⟨again, _, rest⟩ := (repeats _).align rest
        obtain ⟨after, left, _, runsLoop, rest⟩ := shorter again (by omega) rest
        exact ⟨after, left, by omega, .whileRepeated runsTest zero runsBody runsLoop, rest⟩

theorem reaches_iff_runs (program : Program) (machine : Machine σ) (before after : σ) :
    machine.Reaches (program.code annotate base) (0, before) ((program.code annotate base).length, after) ↔
      program.Runs machine before after := by
  have unique : (definedLabels (program.code annotate base)).Nodup := program.nodup_definedLabels
  constructor
  · intro reaches
    obtain ⟨count, halts⟩ := Machine.reaches_iff_reachesIn.mp reaches
    obtain ⟨reached, left, _, runs, rest⟩ := runs_of_reachesIn unique (.self _) halts
    -- The code of the program is all code, so its end is where the run stands still.
    rw [Nat.zero_add] at rest
    cases rest with
    | refl => exact runs
    | step steps _ => simp [Machine.step?] at steps
  · intro runs
    simpa using reaches_of_runs unique (.self _) runs

end Program

/-! ## The emitted program -/

theorem Context.tracks_direct (context : Context) :
    context.Tracks { pool := context.pool, labels := context.labels, constructs := context.outline } :=
  ⟨rfl, rfl, rfl⟩

/-- A program that is generated with no level open writes the text of its code, and running that code to its
end is running the program. -/
theorem Program.emit_preserves_meaning (program : Program) (context : Context)
    (unbuffered : context.stack.levels = []) (succeeds : (program.emit context).result = .ok ()) :
    (program.emit context).state.stack.levels = [] ∧
    (program.emit context).state.stream.written =
      context.stream.written ++
        (Inst.lines (program.code context.options.annotate context.labels.issued)).toUTF8 ∧
    ∀ (σ : Type) (machine : Machine σ) (before after : σ),
      machine.Reaches (program.code context.options.annotate context.labels.issued) (0, before)
          ((program.code context.options.annotate context.labels.issued).length, after) ↔
        program.Runs machine before after := by
  -- Levels come and go while the program is generated, but the virtual text only grows by its operations.
  have adds := Program.emit_adds context.tracks_direct ⟨succeeds, rfl⟩
  have closed : (program.emit context).state.stack.levels = [] := by
    have outline : (program.emit context).state.outline = context.outline := adds.tracks.constructs
    simpa [Context.outline, unbuffered] using outline
  refine ⟨closed, ?_, ?_⟩
  · rw [← Context.virtual_of_unbuffered closed, ← Context.virtual_of_unbuffered unbuffered]
    exact adds.virtual
  · intro σ machine before after
    exact program.reaches_iff_runs machine before after

/-- Reads numbers up to the first zero and prints them, the even ones with the end of a line. -/
def Program.echo : Program :=
  .whileLoop (.basic (.readInt .t0) rfl) .t0
    (.seq (.basic (.opImm .and .t1 .t0 1) rfl)
      (.ifElse .t1
        (.ifThen .t0 (.basic (.writeReg .t0) (Eq.refl true)))
        (.seq (.basic (.writeReg .t0) (Eq.refl true)) (.basic .writeNewline (Eq.refl true)))))

theorem Program.emit_preserves_meaning_echo :
    (echo.emit (Context.start {} {})).result = .ok () ∧
      ∀ (σ : Type) (machine : Machine σ) (before after : σ),
        machine.Reaches (echo.code false 0) (0, before) ((echo.code false 0).length, after) ↔
          echo.Runs machine before after := by
  have succeeds : (echo.emit (Context.start {} {})).result = .ok () := eq_ok_of_isOk (by decide +kernel)
  exact ⟨succeeds, (echo.emit_preserves_meaning (Context.start {} {}) rfl succeeds).2.2⟩

end MipsBackend
