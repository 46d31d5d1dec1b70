import Mathlib.Data.List.Nodup
import MipsBackend.Proofs.ControlGrammar
import MipsBackend.Proofs.DirectEmission
import MipsBackend.Proofs.LabelMachine

/-! # Labels of structured scripts

A construct takes two labels where it begins and places them one by one, in different requests. The labels
of an unfinished script are kept in accounts: each label handed out was placed, or an open construct still
holds it, or it was the end label of a conditional that turned out to have one branch (`Accounts`).

* `ControlMark.Moves`: what a structured request does to labels and constructs.
* `Accounts.step`, `Accounts.applyAll`: a request and a run of requests keep the accounts.
* `Script.replay_resolves_labels`: at the end of a successful replay nothing is held any more, so every
  target is defined exactly once.
-/

namespace MipsBackend

namespace ControlMark

/-- How many labels the construct takes that a mark begins. -/
def labels : ControlMark → Nat
  | beginIf | beginWhile => 2
  | _ => 0

/-- How many labels marks take together. -/
def labelsTaken : List ControlMark → Nat
  | [] => 0
  | mark :: rest => mark.labels + labelsTaken rest

@[simp] theorem labelsTaken_append_singleton (marks : List ControlMark) (mark : ControlMark) :
    labelsTaken (marks ++ [mark]) = labelsTaken marks + mark.labels := by
  induction marks with
  | nil => simp [labelsTaken]
  | cons first rest ih =>
    simp only [List.cons_append, labelsTaken, ih]
    omega

end ControlMark

/-- The label is the end label of a conditional without a second branch: the second of the two labels it
takes, after all labels of the constructs that began before it. -/
def EndsOneArmed (marks : List ControlMark) (label : Label) : Prop :=
  ∃ before body rest, marks = before ++ .beginIf :: body ++ .endIf :: rest ∧ WellNested false body ∧
    label = ⟨ControlMark.labelsTaken before + 1⟩

/-! ## The block that ends where the marks end -/

namespace ControlMark

/-- The part that a mark opens. -/
def opened? : ControlMark → Option OpenPart
  | beginIf => some .first
  | beginElse => some .second
  | beginWhile => some .loop
  | _ => none

/-- Behind the mark, a block leaves the part open that the mark opens. -/
inductive LeavesOpen : ControlMark → List ControlMark → Prop
  | first {body : List ControlMark} : WellNested false body → LeavesOpen .beginIf body
  | second {body : List ControlMark} : WellNested false body → LeavesOpen .beginElse body
  | loop {body : List ControlMark} : WellNested true body → LeavesOpen .beginWhile body

namespace LeavesOpen

open OpenPart (advance scan)

variable {mark : ControlMark} {before body : List ControlMark}

/-- The part is the innermost one where the marks end. -/
theorem head?_of_scan {parts last : List OpenPart} (leaves : mark.LeavesOpen body)
    (scanned : scan parts (before ++ mark :: body) = some last) : last.head? = mark.opened? := by
  rw [OpenPart.scan_append] at scanned
  obtain ⟨reached, -, scanned⟩ := Option.bind_eq_some_iff.mp scanned
  obtain ⟨next, advances, scanned⟩ := Option.bind_eq_some_iff.mp scanned
  cases leaves with
  | first nested =>
    cases advances
    rw [OpenPart.scan_of_wellNested nested (by simp)] at scanned
    cases scanned
    rfl
  | second nested =>
    obtain ⟨outer, rfl⟩ : ∃ outer, next = .second :: outer := by
      match reached, advances with
      | .first :: outer, advances => exact ⟨outer, (Option.some.inj advances).symm⟩
    rw [OpenPart.scan_of_wellNested nested (by simp)] at scanned
    cases scanned
    rfl
  | loop nested =>
    cases advances
    rw [OpenPart.scan_of_wellNested nested fun _ => ⟨_, rfl⟩] at scanned
    cases scanned
    rfl

/-- A block inside a part leaves it the innermost one. -/
theorem not_inside {inLoop : Bool} (leaves : mark.LeavesOpen body)
    (nested : WellNested inLoop (before ++ mark :: body)) : inLoop = true ∧ mark = .beginWhile := by
  cases inLoop with
  | false =>
    have scanned : scan [] (before ++ mark :: body) = some [] := OpenPart.scan_of_wellNested nested (by simp)
    have head := leaves.head?_of_scan scanned
    cases leaves <;> cases head
  | true =>
    have scanned : scan [.loop] (before ++ mark :: body) = some [.loop] :=
      OpenPart.scan_of_wellNested nested fun _ => ⟨[], rfl⟩
    have head := leaves.head?_of_scan scanned
    cases leaves with
    | first _ | second _ => cases head
    | loop _ => exact ⟨rfl, rfl⟩

/-- A first branch that is open where the marks end was opened at one place only. -/
theorem unique {outer other : List ControlMark} (leaves : mark.LeavesOpen other) (nested : WellNested false body)
    (same : before ++ .beginIf :: body = outer ++ mark :: other) : before = outer ∧ mark = .beginIf := by
  obtain ⟨between, rfl, inner⟩ | ⟨between, rfl, inner⟩ := List.append_eq_append_iff.mp same
  · cases between with
    | nil =>
      cases inner
      exact ⟨by simp, rfl⟩
    | cons _ between =>
      -- The mark would stand inside the branch and its part would still be open behind it.
      cases inner
      exact absurd (leaves.not_inside nested).1 (by simp)
  · cases between with
    | nil =>
      cases inner
      exact ⟨by simp, rfl⟩
    | cons _ between =>
      cases inner
      have inside (inLoop : Bool) : ¬ WellNested inLoop (between ++ .beginIf :: body) := by
        intro around
        cases ((LeavesOpen.first nested).not_inside around).2
      cases leaves with
      | first around | second around | loop around => exact absurd around (inside _)

end LeavesOpen

end ControlMark

theorem endsOneArmed_append_singleton_iff {marks : List ControlMark} {mark : ControlMark} {label : Label} :
    EndsOneArmed (marks ++ [mark]) label ↔
      EndsOneArmed marks label ∨
        mark = .endIf ∧ ∃ before body, marks = before ++ .beginIf :: body ∧ WellNested false body ∧
          label = ⟨ControlMark.labelsTaken before + 1⟩ := by
  constructor
  · rintro ⟨before, body, rest, same, nested, rfl⟩
    -- The end of the conditional is the last mark, or it was there before.
    obtain rfl | ⟨fewer, last, rfl⟩ := rest.eq_nil_or_concat
    · obtain ⟨rfl, last⟩ := List.append_inj' same rfl
      cases last
      exact .inr ⟨rfl, before, body, rfl, nested, rfl⟩
    · rw [List.concat_eq_append, ← List.cons_append, ← List.append_assoc] at same
      obtain ⟨rfl, -⟩ := List.append_inj' same rfl
      exact .inl ⟨before, body, fewer, rfl, nested, rfl⟩
  · rintro (⟨before, body, rest, rfl, nested, rfl⟩ | ⟨rfl, before, body, rfl, nested, rfl⟩)
    · exact ⟨before, body, rest ++ [mark], by simp, nested, rfl⟩
    · exact ⟨before, body, [], by simp, nested, rfl⟩

/-! ## Marks and the constructs they leave open -/

theorem WellNested.append {inLoop : Bool} {left right : List ControlMark} (first : WellNested inLoop left)
    (second : WellNested inLoop right) : WellNested inLoop (left ++ right) := by
  induction first with
  | nil => exact second
  | plain _ ih => exact .plain (ih second)
  | loopTest _ ih => exact .loopTest (ih second)
  | ifThen inside _ _ ih => simpa using WellNested.ifThen inside (ih second)
  | ifElse inside other _ _ _ ih => simpa using WellNested.ifElse inside other (ih second)
  | whileLoop inside _ _ ih => simpa using WellNested.whileLoop inside (ih second)

open ControlMark (labelsTaken)

/-- Marks that leave constructs open, each with the labels it took where it began. -/
inductive Inside : List ControlMark → List Construct → Prop
  | top {marks : List ControlMark} : WellNested false marks → Inside marks []
  | first {outer body : List ControlMark} {constructs : List Construct} :
      Inside outer constructs → WellNested false body →
      Inside (outer ++ .beginIf :: body)
        (.conditional ⟨labelsTaken outer⟩ ⟨labelsTaken outer + 1⟩ false :: constructs)
  | second {outer body other : List ControlMark} {constructs : List Construct} :
      Inside outer constructs → WellNested false body → WellNested false other →
      Inside (outer ++ .beginIf :: body ++ .beginElse :: other)
        (.conditional ⟨labelsTaken outer⟩ ⟨labelsTaken outer + 1⟩ true ::
          .conditional ⟨labelsTaken outer⟩ ⟨labelsTaken outer + 1⟩ false :: constructs)
  | loop {outer body : List ControlMark} {constructs : List Construct} :
      Inside outer constructs → WellNested true body →
      Inside (outer ++ .beginWhile :: body)
        (.loop ⟨labelsTaken outer⟩ ⟨labelsTaken outer + 1⟩ :: constructs)

namespace Inside

variable {marks : List ControlMark} {constructs : List Construct}

theorem append (inside : Inside marks constructs) (block : List ControlMark)
    (blocks : ∀ inLoop, WellNested inLoop block) : Inside (marks ++ block) constructs := by
  cases inside with
  | top nested => exact .top (nested.append (blocks false))
  | first outside nested => simpa using Inside.first outside (nested.append (blocks false))
  | second outside nested other => simpa using Inside.second outside nested (other.append (blocks false))
  | loop outside nested => simpa using Inside.loop outside (nested.append (blocks true))

/-- Where the marks end in a first branch, its conditional is the innermost construct. -/
theorem innermost_of_beginIf {before body : List ControlMark}
    (inside : Inside (before ++ .beginIf :: body) constructs) (nested : WellNested false body) :
    ∃ outer, constructs = .conditional ⟨labelsTaken before⟩ ⟨labelsTaken before + 1⟩ false :: outer := by
  generalize shape : before ++ .beginIf :: body = marks at inside
  cases inside with
  | top around =>
    rw [← shape] at around
    cases ((ControlMark.LeavesOpen.first nested).not_inside around).1
  | @first outer other constructs outside around =>
    obtain ⟨rfl, -⟩ := (ControlMark.LeavesOpen.first around).unique nested shape
    exact ⟨constructs, rfl⟩
  | second outside around other => cases ((ControlMark.LeavesOpen.second other).unique nested shape).2
  | loop outside around => cases ((ControlMark.LeavesOpen.loop around).unique nested shape).2

end Inside

/-! ## What a structured request does -/

/-- What the request of a mark does where `issued` labels were handed out and constructs are open: the labels
it places, the labels it jumps to, and what it makes of the supply and the constructs. -/
inductive ControlMark.Moves (issued : Nat) (constructs : List Construct) :
    ControlMark → (placed targets : List Label) → Nat → List Construct → Prop
  | plain : Moves issued constructs .plain [] [] issued constructs
  | beginIf : Moves issued constructs .beginIf [] [⟨issued⟩] (issued + 2)
      (.conditional ⟨issued⟩ ⟨issued + 1⟩ false :: constructs)
  | beginElse {elseLabel endLabel : Label} {outer : List Construct} :
      constructs = .conditional elseLabel endLabel false :: outer →
      Moves issued constructs .beginElse [elseLabel] [endLabel] issued
        (.conditional elseLabel endLabel true :: constructs)
  | endFirst {elseLabel endLabel : Label} {outer : List Construct} :
      constructs = .conditional elseLabel endLabel false :: outer →
      Moves issued constructs .endIf [elseLabel] [] issued outer
  | endSecond {elseLabel endLabel : Label} {lower : Construct} {outer : List Construct} :
      constructs = .conditional elseLabel endLabel true :: lower :: outer →
      Moves issued constructs .endIf [endLabel] [] issued outer
  | beginWhile : Moves issued constructs .beginWhile [⟨issued⟩] [] (issued + 2)
      (.loop ⟨issued⟩ ⟨issued + 1⟩ :: constructs)
  | loopTest {entryLabel exitLabel : Label} {outer : List Construct} :
      constructs = .loop entryLabel exitLabel :: outer →
      Moves issued constructs .loopTest [] [exitLabel] issued constructs
  | endWhile {entryLabel exitLabel : Label} {outer : List Construct} :
      constructs = .loop entryLabel exitLabel :: outer →
      Moves issued constructs .endWhile [exitLabel] [entryLabel] issued outer

def Operation.placedLabel? : Operation → Option Label
  | .place target => some target
  | _ => none

def Operation.target? : Operation → Option Label
  | .jump target | .beq _ _ target => some target
  | _ => none

/-- The labels that operations place, in order. -/
def placedLabels (operations : List Operation) : List Label := operations.filterMap Operation.placedLabel?

/-- The labels that operations jump to, in order. -/
def targetLabels (operations : List Operation) : List Label := operations.filterMap Operation.target?

/-- A plain request leaves the flow of control alone. -/
theorem Names.resolve_plain_step {names : Names} {index : Nat} {request : Request} {step : Step}
    (marked : request.controlMark? = some .plain) (resolves : names.resolve index request = .ok (.step step)) :
    ∃ operation, step = .emit operation ∧ operation.isBasic = true := by
  cases request <;> cases marked <;>
    simp only [Names.resolve, Names.freeTask, exceptBind_eq_ok_iff, Except.ok.injEq, Task.step.injEq] at resolves <;>
    grind [Operation.isBasic]

theorem Direct.moves_of_step {direct next : Direct} {step : Step} {mark : ControlMark} {own : List Operation}
    (structured : step.controlMark? = some mark) (other : mark ≠ .plain)
    (steps : direct.step step = some (own, next)) :
    mark.Moves direct.labels.issued direct.constructs (placedLabels own) (targetLabels own) next.labels.issued
      next.constructs := by
  cases step with
  | emit operation => exact absurd (Option.some.inj structured).symm other
  | beginIf cond =>
    cases structured
    cases steps
    exact .beginIf
  | beginElse =>
    cases structured
    simp only [Direct.step] at steps
    split at steps
    next shape =>
      cases steps
      exact .beginElse shape
    next => cases steps
  | endIf =>
    cases structured
    simp only [Direct.step] at steps
    split at steps
    next shape =>
      cases steps
      exact .endSecond shape
    next shape =>
      cases steps
      exact .endFirst shape
    next => cases steps
  | beginWhile =>
    cases structured
    cases steps
    exact .beginWhile
  | loopTest cond =>
    cases structured
    simp only [Direct.step] at steps
    split at steps
    next shape =>
      cases steps
      exact .loopTest shape
    next => cases steps
  | endWhile =>
    cases structured
    simp only [Direct.step] at steps
    split at steps
    next shape =>
      cases steps
      exact .endWhile shape
    next => cases steps
  | _ => cases structured

theorem Direct.moves_of_apply {direct next : Direct} {index : Nat} {request : Request} {mark : ControlMark}
    {own : List Operation} (marked : request.controlMark? = some mark)
    (applies : direct.apply index request = some (own, next)) :
    mark.Moves direct.labels.issued direct.constructs (placedLabels own) (targetLabels own) next.labels.issued
      next.constructs := by
  unfold Direct.apply at applies
  split at applies
  next task resolves =>
    cases task with
    | bindLabel name => exact absurd rfl ((Names.resolve_plain marked resolves (by simp)).2 name)
    | bindSlot name =>
      obtain ⟨rfl, -⟩ := Names.resolve_plain marked resolves (by simp)
      simp only [Direct.perform] at applies
      split at applies <;> cases applies
      exact .plain
    | freeSlot name reg =>
      obtain ⟨rfl, -⟩ := Names.resolve_plain marked resolves (by simp)
      simp only [Direct.perform] at applies
      split at applies <;> cases applies
      exact .plain
    | step step =>
      have structured := Names.resolve_controlMark? marked resolves
      by_cases plain : mark = .plain
      · subst plain
        obtain ⟨operation, rfl, basic⟩ := Names.resolve_plain_step marked resolves
        cases applies
        cases operation <;> first | exact .plain | cases basic
      · exact direct.moves_of_step structured plain applies
  next => cases applies

/-! ## The accounts of an unfinished script -/

namespace Construct

/-- Labels that open constructs took and have not placed, innermost first. Both levels of a conditional in its
second branch stand for the same labels. -/
def pending : List Construct → List Label
  | [] => []
  | conditional _ endLabel true :: _ :: outer => endLabel :: pending outer
  | conditional elseLabel endLabel _ :: outer => elseLabel :: endLabel :: pending outer
  | loop _ exitLabel :: outer => exitLabel :: pending outer

/-- The labels among them that code may already jump to. -/
def awaited : List Construct → List Label
  | [] => []
  | conditional _ endLabel true :: _ :: outer => endLabel :: awaited outer
  | conditional elseLabel _ _ :: outer => elseLabel :: awaited outer
  | loop _ exitLabel :: outer => exitLabel :: awaited outer

/-- The entry label of a loop. -/
def loopEntry : Construct → Option Label
  | loop entryLabel _ => some entryLabel
  | _ => none

end Construct

/-- The labels that a mark leaves without a place: the end label of a first branch that it ends. -/
def Construct.abandoned : ControlMark → List Construct → List Label
  | .endIf, .conditional _ endLabel false :: _ => [endLabel]
  | _, _ => []

/-- The labels handed out when `issued` of them were. -/
def issuedLabels (issued : Nat) : List Label := (List.range issued).map Label.mk

theorem issuedLabels_add_two (issued : Nat) :
    issuedLabels (issued + 2) = issuedLabels issued ++ [⟨issued⟩, ⟨issued + 1⟩] := by
  simp [issuedLabels, List.range_succ]

namespace ControlMark.Moves

open Construct

variable {mark : ControlMark} {issued supply : Nat} {constructs next : List Construct} {own jumps : List Label}

theorem supply_eq (moves : mark.Moves issued constructs own jumps supply next) :
    supply = issued + mark.labels := by
  cases moves <;> rfl

/-- Whatever was handed out or held is placed, held or abandoned afterwards. -/
theorem balance (moves : mark.Moves issued constructs own jumps supply next) (label : Label) :
    own.count label + (pending next).count label + (abandoned mark constructs).count label +
        (issuedLabels issued).count label =
      (pending constructs).count label + (issuedLabels supply).count label := by
  cases moves with
  | plain => simp [abandoned]
  | beginIf | beginWhile =>
    simp only [issuedLabels_add_two, pending, abandoned, List.count_append, List.count_cons, List.count_nil]
    omega
  | beginElse shape | endFirst shape | endSecond shape | endWhile shape =>
    subst shape
    simp only [pending, abandoned, List.count_cons, List.count_nil]
    omega
  | loopTest shape => simp [abandoned]

/-- The entry of an open loop was placed where the loop began. -/
theorem entered (moves : mark.Moves issued constructs own jumps supply next) {label : Label}
    (entry : label ∈ next.filterMap loopEntry) : label ∈ constructs.filterMap loopEntry ∨ label ∈ own := by
  cases moves with
  | plain | beginIf | loopTest _ => exact .inl (by simpa [loopEntry] using entry)
  | beginElse shape | endFirst shape | endSecond shape | endWhile shape =>
    subst shape
    exact .inl (by simp_all [loopEntry])
  | beginWhile =>
    simp only [List.filterMap_cons, loopEntry, List.mem_cons] at entry
    exact entry.symm.imp id List.mem_singleton.mpr

/-- A jump goes back to the entry of a loop or forward to a label that is still to be placed. -/
theorem jumps_resolve (moves : mark.Moves issued constructs own jumps supply next) {label : Label}
    (jump : label ∈ jumps) : label ∈ constructs.filterMap loopEntry ∨ label ∈ awaited next := by
  cases moves with
  | plain | endFirst _ | endSecond _ | beginWhile => cases jump
  | beginIf | beginElse _ => exact .inr (by simp_all [awaited])
  | loopTest shape => exact .inr (by simp_all [awaited])
  | endWhile shape => exact .inl (by simp_all [loopEntry])

/-- A label that jumps wait for is placed or waited for further. -/
theorem awaited_resolve (moves : mark.Moves issued constructs own jumps supply next) {label : Label}
    (waits : label ∈ awaited constructs) : label ∈ own ∨ label ∈ awaited next := by
  cases moves with
  | plain | loopTest _ => exact .inr waits
  | beginIf | beginWhile => exact .inr (List.mem_cons_of_mem _ waits)
  | beginElse shape | endFirst shape | endSecond shape | endWhile shape =>
    subst shape
    simp only [awaited, List.mem_cons] at waits ⊢
    grind

end ControlMark.Moves

namespace Inside

variable {marks : List ControlMark} {mark : ControlMark} {constructs next : List Construct} {own jumps : List Label}
  {supply : Nat}

theorem step (inside : Inside marks constructs)
    (moves : mark.Moves (labelsTaken marks) constructs own jumps supply next) :
    Inside (marks ++ [mark]) next := by
  cases moves with
  | plain => exact inside.append [.plain] fun _ => .plain .nil
  | beginIf => exact .first inside .nil
  | beginWhile => exact .loop inside .nil
  | beginElse shape =>
    cases inside with
    | first outside nested =>
      cases shape
      exact .second outside nested .nil
    | top _ | second _ _ _ | loop _ _ => cases shape
  | endFirst shape =>
    cases inside with
    | @first outer body constructs outside nested =>
      cases shape
      have whole := outside.append (.beginIf :: body ++ [.endIf]) fun _ => .ifThen nested .nil
      simpa using whole
    | top _ | second _ _ _ | loop _ _ => cases shape
  | endSecond shape =>
    cases inside with
    | @second outer body other constructs outside nested beyond =>
      cases shape
      have whole := outside.append (.beginIf :: body ++ .beginElse :: other ++ [.endIf]) fun _ =>
        .ifElse nested beyond .nil
      simpa using whole
    | top _ | first _ _ | loop _ _ => cases shape
  | loopTest shape =>
    cases inside with
    | loop outside nested => simpa using Inside.loop outside (nested.append (.loopTest .nil))
    | top _ | first _ _ | second _ _ _ => cases shape
  | endWhile shape =>
    cases inside with
    | @loop outer body constructs outside nested =>
      cases shape
      have whole := outside.append (.beginWhile :: body ++ [.endWhile]) fun _ => .whileLoop nested .nil
      simpa using whole
    | top _ | first _ _ | second _ _ _ => cases shape

/-- A mark ends a conditional without a second branch exactly where it leaves a label without a place. -/
theorem endsOneArmed_append_iff (inside : Inside marks constructs) {label : Label} :
    EndsOneArmed (marks ++ [mark]) label ↔
      EndsOneArmed marks label ∨ label ∈ Construct.abandoned mark constructs := by
  rw [endsOneArmed_append_singleton_iff]
  refine or_congr_right ?_
  constructor
  · rintro ⟨rfl, before, body, rfl, nested, rfl⟩
    obtain ⟨outer, rfl⟩ := inside.innermost_of_beginIf nested
    simp [Construct.abandoned]
  · intro left
    cases inside with
    | top _ | second _ _ _ | loop _ _ => cases mark <;> cases left
    | @first outer body constructs outside nested =>
      cases mark with
      | endIf =>
        obtain rfl := List.mem_singleton.mp left
        exact ⟨rfl, outer, body, rfl, nested, rfl⟩
      | _ => cases left

end Inside

/-! ## The accounts of an unfinished script -/

/-- Marks, the labels that their requests placed and jumped to, and the labels and constructs after them. -/
structure Accounts (marks : List ControlMark) (placed targets : List Label) (issued : Nat)
    (constructs : List Construct) : Prop where
  inside : Inside marks constructs
  taken : issued = labelsTaken marks
  /-- A label was placed, or an open construct holds it, or its conditional had one branch. -/
  balance : ∃ unused, (∀ label, label ∈ unused ↔ EndsOneArmed marks label) ∧
    (placed ++ Construct.pending constructs ++ unused).Perm (issuedLabels issued)
  entered : ∀ label ∈ constructs.filterMap Construct.loopEntry, label ∈ placed
  resolved : ∀ label ∈ targets, label ∈ placed ∨ label ∈ Construct.awaited constructs

namespace Accounts

variable {marks : List ControlMark} {placed targets : List Label} {issued : Nat} {constructs : List Construct}

theorem start : Accounts [] [] [] ({} : Direct).labels.issued ({} : Direct).constructs where
  inside := .top .nil
  taken := rfl
  balance := ⟨[], by simp [EndsOneArmed], .nil⟩
  entered := by simp
  resolved := by simp

/-- One request keeps the accounts. -/
theorem step {mark : ControlMark} {own jumps : List Label} {supply : Nat} {next : List Construct}
    (accounts : Accounts marks placed targets issued constructs)
    (moves : mark.Moves issued constructs own jumps supply next) :
    Accounts (marks ++ [mark]) (placed ++ own) (targets ++ jumps) supply next where
  inside := accounts.inside.step (accounts.taken ▸ moves)
  taken := by simp [moves.supply_eq, accounts.taken]
  balance := by
    obtain ⟨unused, unusedIff, balance⟩ := accounts.balance
    refine ⟨unused ++ Construct.abandoned mark constructs, fun label => ?_, ?_⟩
    · rw [List.mem_append, unusedIff, accounts.inside.endsOneArmed_append_iff]
    · rw [List.perm_iff_count] at balance ⊢
      intro label
      have before := balance label
      have moved := moves.balance label
      simp only [List.count_append] at before ⊢
      omega
  entered := by
    intro label entry
    obtain earlier | now := moves.entered entry
    · exact List.mem_append_left _ (accounts.entered label earlier)
    · exact List.mem_append_right _ now
  resolved := by
    intro label target
    obtain earlier | now := List.mem_append.mp target
    · obtain isPlaced | waits := accounts.resolved label earlier
      · exact .inl (List.mem_append_left _ isPlaced)
      · exact (moves.awaited_resolve waits).imp (List.mem_append_right _) id
    · exact (moves.jumps_resolve now).imp (fun entry => List.mem_append_left _ (accounts.entered label entry)) id

/-- So does a run of requests. -/
theorem applyAll {direct last : Direct} {index : Nat} {requests : List Request} {more : List ControlMark}
    {operations : List Operation}
    (accounts : Accounts marks placed targets direct.labels.issued direct.constructs)
    (marked : requests.map Request.controlMark? = more.map some)
    (runs : direct.applyAll index requests = some (operations, last)) :
    Accounts (marks ++ more) (placed ++ placedLabels operations) (targets ++ targetLabels operations)
      last.labels.issued last.constructs := by
  induction requests generalizing direct index marks more placed targets operations with
  | nil =>
    obtain rfl : more = [] := List.map_eq_nil_iff.mp marked.symm
    cases runs
    simpa [placedLabels, targetLabels] using accounts
  | cons request rest ih =>
    obtain ⟨mark, others, rfl, own, marked⟩ := List.map_eq_cons_iff.mp marked.symm
    simp only [Direct.applyAll, Option.bind_eq_bind, Option.bind_eq_some_iff] at runs
    obtain ⟨⟨first, next⟩, applies, ⟨later, final⟩, runs, same⟩ := runs
    cases same
    have kept := ih (accounts.step (direct.moves_of_apply own.symm applies)) marked.symm runs
    simpa [placedLabels, targetLabels] using kept

end Accounts

/-! ## The labels of a finished script -/

theorem mem_issuedLabels {issued : Nat} {label : Label} : label ∈ issuedLabels issued ↔ label.id < issued := by
  cases label
  simp [issuedLabels]

theorem nodup_issuedLabels (issued : Nat) : (issuedLabels issued).Nodup := by
  refine List.Nodup.map ?_ List.nodup_range
  intro first second same
  exact congrArg Label.id same

/-- Every label that is jumped to is defined once. Only the end labels of conditionals with one branch are
handed out for nothing. -/
structure LabelsResolve (marks : List ControlMark) (defined targets : List Label) (issued : Nat) : Prop where
  once : ∀ label, defined.count label ≤ 1
  resolved : ∀ label ∈ targets, defined.count label = 1 ∧ label.id < issued
  unused_iff : ∀ label, (label.id < issued ∧ label ∉ defined) ↔ EndsOneArmed marks label
  unused_untargeted : ∀ label, EndsOneArmed marks label → label ∉ targets

/-- At the end no construct holds a label or waits for one. -/
theorem Accounts.labelsResolve {marks : List ControlMark} {placed targets : List Label} {issued : Nat}
    (accounts : Accounts marks placed targets issued []) : LabelsResolve marks placed targets issued := by
  obtain ⟨unused, unusedIff, balance⟩ := accounts.balance
  rw [Construct.pending, List.append_nil] at balance
  have distinct : (placed ++ unused).Nodup := balance.nodup_iff.mpr (nodup_issuedLabels issued)
  obtain ⟨placedOnce, -, apart⟩ := List.nodup_append.mp distinct
  have known (label : Label) : label.id < issued ↔ label ∈ placed ∨ label ∈ unused := by
    rw [← mem_issuedLabels, ← balance.mem_iff, List.mem_append]
  have isPlaced : ∀ label ∈ targets, label ∈ placed := by
    intro label target
    simpa [Construct.awaited] using accounts.resolved label target
  refine ⟨List.nodup_iff_count_le_one.mp placedOnce, ?_, ?_, ?_⟩
  · intro label target
    exact ⟨List.count_eq_one_of_mem placedOnce (isPlaced label target), (known label).mpr (.inl (isPlaced label target))⟩
  · intro label
    rw [known, ← unusedIff]
    constructor
    · rintro ⟨held, missing⟩
      exact held.resolve_left missing
    · intro left
      exact ⟨.inr left, fun isPlaced => apart label isPlaced label left rfl⟩
  · intro label ends target
    exact apart label (isPlaced label target) label ((unusedIff label).mpr ends) rfl

/-! ## From operations to instructions -/

def Inst.target? : Inst → Option Label
  | .j target | .beq _ _ target => some target
  | _ => none

/-- The labels that instructions jump to, in order. -/
def jumpTargets (code : List Inst) : List Label := code.filterMap Inst.target?

/-- What framing and annotation add to a program has no part in labels. -/
theorem filterMap_programFragments {view : Inst → Option Label} {own : Operation → Option Label}
    (comments : ∀ text, view (.comment text) = none) (directives : ∀ text, view (.directive text) = none)
    (exits : Service.exit.call.filterMap view = [])
    (agrees : ∀ operation : Operation, operation.insts.filterMap view = (own operation).toList)
    (annotate : Bool) (operations : List Operation) (strings : List String) :
    (Fragment.allEmitted annotate (programFragments operations strings)).filterMap view =
      operations.filterMap own := by
  have emitted (fragment : Fragment) :
      (fragment.emitted annotate).filterMap view = fragment.insts.filterMap view := by
    unfold Fragment.emitted Fragment.remark
    split <;> simp [comments]
  have prolog : Fragment.prolog.insts.filterMap view = [] := by simp [Fragment.prolog, asciizLine, directives]
  have literals : (literalSection strings).insts.filterMap view = [] := by
    simp [literalSection, Fragment.dataSection, asciizLine, directives]
  have body : (Fragment.allEmitted annotate (operations.map Operation.fragment)).filterMap view =
      operations.filterMap own := by
    induction operations with
    | nil => rfl
    | cons operation rest ih =>
      simp only [Fragment.allEmitted, List.map_cons, List.flatMap_cons, List.filterMap_append, emitted] at ih ⊢
      rw [ih, Operation.fragment, agrees]
      cases view : own operation <;> simp [view]
  simp only [Fragment.allEmitted] at body
  simp [Fragment.allEmitted, programFragments, emitted, body, prolog, literals, Fragment.epilog, exits]

theorem definedLabels_programFragments (annotate : Bool) (operations : List Operation) (strings : List String) :
    definedLabels (Fragment.allEmitted annotate (programFragments operations strings)) = placedLabels operations := by
  refine filterMap_programFragments (fun _ => rfl) (fun _ => rfl) rfl ?_ annotate operations strings
  intro operation
  cases operation <;> rfl

theorem jumpTargets_programFragments (annotate : Bool) (operations : List Operation) (strings : List String) :
    jumpTargets (Fragment.allEmitted annotate (programFragments operations strings)) = targetLabels operations := by
  refine filterMap_programFragments (fun _ => rfl) (fun _ => rfl) rfl ?_ annotate operations strings
  intro operation
  cases operation <;> rfl

/-! ## Whole scripts -/

theorem Script.constructs_of_replay {script : Script} {options : Options} {stream : Stream}
    {operations : List Operation} {last : Direct} (succeeds : (script.replay options stream).result = .ok ())
    (runs : ({} : Direct).applyAll 0 script.requests = some (operations, last)) : last.constructs = [] := by
  obtain ⟨requested, requests, unbuffered, -, -⟩ := Replay.run_yields ⟨succeeds, rfl⟩
  have begins := Replay.tracks_start options stream
  have tracked : (Replay.start (Context.start options stream)).begun.Tracks {} :=
    ⟨begins.names, begins.context.appended _⟩
  obtain ⟨_, _, again, adds, -⟩ := tracked.applyAll requests
  rw [runs] at again
  cases again
  rw [← adds.tracks.constructs]
  simp [Context.outline, unbuffered]

/-- In what a successful replay of structured requests writes, every label that a jump goes to is defined exactly
once, no label is defined twice, and the labels that were handed out but not defined are the end labels of the
conditionals without a second branch, which nothing jumps to. -/
theorem Script.replay_resolves_labels (script : Script) (options : Options) (stream : Stream)
    (marks : List ControlMark) (marked : script.requests.map Request.controlMark? = marks.map some)
    (succeeds : (script.replay options stream).result = .ok ()) :
    ∃ operations insts, script.operations? = some operations ∧
      insts = Fragment.allEmitted options.annotate (programFragments operations script.strings) ∧
      (script.replay options stream).state.context.stream.written = stream.written ++ (Inst.lines insts).toUTF8 ∧
      LabelsResolve marks (definedLabels insts) (jumpTargets insts)
        (script.replay options stream).state.summary.labelsIssued := by
  obtain ⟨operations, last, runs, written, summary⟩ := Script.replay_written succeeds
  refine ⟨operations, _, by simp [Script.operations?, runs], rfl, written, ?_⟩
  have accounts := Accounts.start.applyAll marked runs
  rw [Script.constructs_of_replay succeeds runs] at accounts
  rw [definedLabels_programFragments, jumpTargets_programFragments, summary]
  exact accounts.labelsResolve

/-- A loop around a conditional with one branch and a conditional with two. -/
def Script.unevenBranches : Script where
  strings := []
  requests := [
    .alloc "c",
    .beginWhile,
    .readInt "c",
    .loopTest "c",
    .beginIf "c",
    .writeReg "c",
    .endIf,
    .beginIf "c",
    .writeInt 1,
    .beginElse,
    .writeInt 0,
    .endIf,
    .endWhile,
    .free "c"]

theorem Script.replay_resolves_labels_unevenBranches :
    (unevenBranches.replay {} {}).result = .ok () ∧
      ∃ operations insts, unevenBranches.operations? = some operations ∧
        insts = Fragment.allEmitted false (programFragments operations []) ∧
        (⟨3⟩ : Label) ∉ definedLabels insts ∧ (⟨3⟩ : Label) ∉ jumpTargets insts := by
  have succeeds : (unevenBranches.replay {} {}).result = .ok () := eq_ok_of_isOk (by decide +kernel)
  obtain ⟨operations, insts, known, isText, -, resolves⟩ := unevenBranches.replay_resolves_labels {} {}
    [.plain, .beginWhile, .plain, .loopTest, .beginIf, .plain, .endIf, .beginIf, .plain, .beginElse, .plain, .endIf,
      .endWhile, .plain] rfl succeeds
  have ends : EndsOneArmed [.plain, .beginWhile, .plain, .loopTest, .beginIf, .plain, .endIf, .beginIf, .plain,
      .beginElse, .plain, .endIf, .endWhile, .plain] ⟨3⟩ :=
    ⟨[.plain, .beginWhile, .plain, .loopTest], [.plain], _, rfl, .plain .nil, rfl⟩
  exact ⟨succeeds, operations, insts, known, isText, ((resolves.unused_iff _).mpr ends).2,
    resolves.unused_untargeted _ ends⟩

end MipsBackend
