import MipsBackend.Script.Nesting

/-! # Reading marks from left to right

`OpenPart.scan` reads marks one by one and keeps the parts that are open. It accepts exactly the words of the
grammar (`scan_eq_nil_iff`), and it gets stuck exactly where no continuation is a word (`extendable_iff`).
-/

namespace MipsBackend

/-- Where the marks read so far stand inside an open construct. -/
inductive OpenPart
  | first | second | loop
deriving DecidableEq

namespace OpenPart

/-- The open parts after one more mark, innermost first, if the mark may stand there. -/
def advance : List OpenPart → ControlMark → Option (List OpenPart)
  | parts, .plain => some parts
  | parts, .beginIf => some (first :: parts)
  | parts, .beginWhile => some (loop :: parts)
  | first :: parts, .beginElse => some (second :: parts)
  | first :: parts, .endIf => some parts
  | second :: parts, .endIf => some parts
  | loop :: parts, .loopTest => some (loop :: parts)
  | loop :: parts, .endWhile => some parts
  | _, _ => none

/-- The open parts after marks, if each of them may stand where it stands. -/
def scan (parts : List OpenPart) : List ControlMark → Option (List OpenPart)
  | [] => some parts
  | mark :: rest => (advance parts mark).bind fun next => scan next rest

/-- How many levels open parts lie on. The second part of a conditional lies on top of the first. -/
def levels : List OpenPart → Nat
  | [] => 0
  | first :: parts => levels parts + 1
  | second :: parts => levels parts + 2
  | loop :: parts => levels parts + 1

theorem levels_eq_zero_iff {parts : List OpenPart} : levels parts = 0 ↔ parts = [] := by
  cases parts with
  | nil => simp [levels]
  | cons part parts => cases part <;> simp [levels]

theorem scan_append (parts : List OpenPart) (left right : List ControlMark) :
    scan parts (left ++ right) = (scan parts left).bind fun next => scan next right := by
  induction left generalizing parts with
  | nil => rfl
  | cons mark rest ih =>
    simp only [List.cons_append, scan]
    cases advance parts mark with
    | none => rfl
    | some next => exact ih next

/-! ## Words leave the open parts as they are -/

theorem scan_of_wellNested {inLoop : Bool} {marks : List ControlMark} (nested : WellNested inLoop marks)
    {parts : List OpenPart} (inside : inLoop = true → ∃ outer, parts = loop :: outer) :
    scan parts marks = some parts := by
  induction nested generalizing parts with
  | nil => rfl
  | plain _ ih => exact ih inside
  | loopTest _ ih =>
    obtain ⟨outer, rfl⟩ := inside rfl
    exact ih inside
  | ifThen _ _ bodyScan restScan =>
    simp only [List.cons_append, scan, advance, Option.bind_some, scan_append]
    rw [bodyScan (by simp)]
    exact restScan inside
  | ifElse _ _ _ firstScan secondScan restScan =>
    simp only [List.cons_append, List.append_assoc, scan, advance, Option.bind_some, scan_append]
    rw [firstScan (by simp)]
    simp only [Option.bind_some]
    rw [secondScan (by simp)]
    exact restScan inside
  | whileLoop _ _ bodyScan restScan =>
    simp only [List.cons_append, scan, advance, Option.bind_some, scan_append]
    rw [bodyScan fun _ => ⟨parts, rfl⟩]
    exact restScan inside

/-! ## What is left to read completes the open parts -/

/-- Marks that end every open part and form a word around them. -/
inductive Completes : List OpenPart → List ControlMark → Prop
  | done {marks : List ControlMark} : WellNested false marks → Completes [] marks
  | first {parts : List OpenPart} {body rest : List ControlMark} :
      WellNested false body → Completes parts rest → Completes (first :: parts) (body ++ .endIf :: rest)
  | turned {parts : List OpenPart} {body other rest : List ControlMark} :
      WellNested false body → WellNested false other → Completes parts rest →
      Completes (OpenPart.first :: parts) (body ++ .beginElse :: other ++ .endIf :: rest)
  | second {parts : List OpenPart} {body rest : List ControlMark} :
      WellNested false body → Completes parts rest → Completes (second :: parts) (body ++ .endIf :: rest)
  | loop {parts : List OpenPart} {body rest : List ControlMark} :
      WellNested true body → Completes parts rest → Completes (loop :: parts) (body ++ .endWhile :: rest)

/-- A block that may stand before every block may stand before what completes open parts. -/
theorem Completes.prepend {parts : List OpenPart} {rest : List ControlMark} (completes : Completes parts rest)
    (block : List ControlMark)
    (blocks : ∀ inLoop marks, WellNested inLoop marks → WellNested inLoop (block ++ marks)) :
    Completes parts (block ++ rest) := by
  cases completes with
  | done nested => exact .done (blocks _ _ nested)
  | first nested others =>
    rw [← List.append_assoc]
    exact .first (blocks _ _ nested) others
  | turned nested other others =>
    rw [← List.append_assoc, ← List.append_assoc]
    exact .turned (blocks _ _ nested) other others
  | second nested others =>
    rw [← List.append_assoc]
    exact .second (blocks _ _ nested) others
  | loop nested others =>
    rw [← List.append_assoc]
    exact .loop (blocks _ _ nested) others

/-- One mark earlier, the same marks complete what was open then. -/
theorem Completes.before {parts next : List OpenPart} {mark : ControlMark} {rest : List ControlMark}
    (advances : advance parts mark = some next) (completes : Completes next rest) :
    Completes parts (mark :: rest) := by
  -- A mark that begins a construct finds its end in what completes it, and the two make a block of their own.
  -- A mark that ends one completes an empty rest of it.
  cases mark with
  | plain =>
    cases advances
    exact completes.prepend [.plain] fun _ _ nested => .plain nested
  | beginIf =>
    cases advances
    cases completes with
    | @first _ body rest inside others =>
      have earlier := others.prepend (.beginIf :: body ++ [.endIf]) fun _ _ nested => by
        simpa using WellNested.ifThen inside nested
      simpa using earlier
    | @turned _ body other rest inside beyond others =>
      have earlier := others.prepend (.beginIf :: body ++ .beginElse :: other ++ [.endIf]) fun _ _ nested => by
        simpa using WellNested.ifElse inside beyond nested
      simpa using earlier
  | beginWhile =>
    cases advances
    cases completes with
    | @loop _ body rest inside others =>
      have earlier := others.prepend (.beginWhile :: body ++ [.endWhile]) fun _ _ nested => by
        simpa using WellNested.whileLoop inside nested
      simpa using earlier
  | beginElse =>
    match parts, advances with
    | .first :: parts, rfl =>
      cases completes with
      | second inside others => exact .turned .nil inside others
  | endIf =>
    match parts, advances with
    | .first :: parts, rfl => exact .first .nil completes
    | .second :: parts, rfl => exact .second .nil completes
  | loopTest =>
    match parts, advances with
    | .loop :: parts, rfl =>
      cases completes with
      | loop inside others => exact .loop (.loopTest inside) others
  | endWhile =>
    match parts, advances with
    | .loop :: parts, rfl => exact .loop .nil completes

theorem completes_of_scan {parts : List OpenPart} {marks : List ControlMark}
    (accepted : scan parts marks = some []) : Completes parts marks := by
  induction marks generalizing parts with
  | nil =>
    cases accepted
    exact .done .nil
  | cons mark rest ih =>
    obtain ⟨next, advances, others⟩ := Option.bind_eq_some_iff.mp accepted
    exact (ih others).before advances

theorem scan_eq_nil_iff {marks : List ControlMark} : scan [] marks = some [] ↔ WellNested false marks := by
  constructor
  · intro accepted
    cases completes_of_scan accepted with
    | done nested => exact nested
  · intro nested
    exact scan_of_wellNested nested (by simp)

/-! ## Prefixes of words -/

/-- Marks that end open parts, innermost first. -/
def closing : List OpenPart → List ControlMark
  | [] => []
  | first :: parts => .endIf :: closing parts
  | second :: parts => .endIf :: closing parts
  | loop :: parts => .endWhile :: closing parts

theorem scan_closing (parts : List OpenPart) : scan parts (closing parts) = some [] := by
  induction parts with
  | nil => rfl
  | cons part parts ih => cases part <;> exact ih

end OpenPart

/-- Marks that some continuation makes a word. -/
def Extendable (marks : List ControlMark) : Prop := ∃ rest, WellNested false (marks ++ rest)

theorem Extendable.of_append {marks more : List ControlMark} (extendable : Extendable (marks ++ more)) :
    Extendable marks := by
  obtain ⟨rest, nested⟩ := extendable
  exact ⟨more ++ rest, by rwa [← List.append_assoc]⟩

theorem Extendable.take_of_le {marks : List ControlMark} {fewer count : Nat}
    (extendable : Extendable (marks.take count)) (le : fewer ≤ count) : Extendable (marks.take fewer) := by
  have split : marks.take fewer ++ (marks.take count).drop fewer = marks.take count := by
    have whole := List.take_append_drop fewer (marks.take count)
    rwa [List.take_take, Nat.min_eq_left le] at whole
  exact Extendable.of_append (split ▸ extendable)

theorem extendable_iff {marks : List ControlMark} :
    Extendable marks ↔ ∃ parts, OpenPart.scan [] marks = some parts := by
  constructor
  · rintro ⟨rest, nested⟩
    have accepted := OpenPart.scan_eq_nil_iff.mpr nested
    rw [OpenPart.scan_append] at accepted
    obtain ⟨parts, scanned, _⟩ := Option.bind_eq_some_iff.mp accepted
    exact ⟨parts, scanned⟩
  · rintro ⟨parts, scanned⟩
    -- Ending every open part, innermost first, makes a word.
    refine ⟨OpenPart.closing parts, OpenPart.scan_eq_nil_iff.mp ?_⟩
    rw [OpenPart.scan_append, scanned]
    exact OpenPart.scan_closing parts

end MipsBackend
