import Mathlib.Data.List.Forall2
import MipsBackend.Proofs.LineBreaks
import MipsBackend.Proofs.StreamFaults

/-! # Annotated programs

Annotation puts comments between the instructions and does nothing else. With it every level holds more text, so the
run without it passes each check of room that the annotated run passes.

* `Context.Abridges`: the context of a run without annotation, beside that of the same run with it.
* `abridging`: the comparison of the two runs, which every step respects.
* `withoutComments`: a text without its comment lines.
* `Script.annotation_only_adds_comments`: how the two programs differ.
-/

namespace MipsBackend

/-! ## Shorter levels -/

/-- The level of the same construct with no more text in it. -/
structure Level.Abridges (plain annotated : Level) : Prop where
  construct_eq : plain.construct = annotated.construct
  capacity_eq : plain.capacity = annotated.capacity
  size_le : plain.size ≤ annotated.size

namespace Level.Abridges

variable {plain annotated : Level}

theorem extend {text longer : String} (abridges : plain.Abridges annotated)
    (shorter : text.utf8ByteSize ≤ longer.utf8ByteSize) : (plain.extend text).Abridges (annotated.extend longer) where
  construct_eq := abridges.construct_eq
  capacity_eq := abridges.capacity_eq
  size_le := by
    rw [size_extend, size_extend]
    exact Nat.add_le_add abridges.size_le shorter

theorem remaining_le (abridges : plain.Abridges annotated) : annotated.remaining ≤ plain.remaining := by
  have := abridges.size_le
  rw [remaining, remaining, abridges.capacity_eq]
  omega

theorem totalSize_le {plain annotated : List Level} (abridges : List.Forall₂ Level.Abridges plain annotated) :
    totalSize plain ≤ totalSize annotated := by
  induction abridges with
  | nil => exact Nat.le_refl 0
  | cons inner _ ih => exact Nat.add_le_add inner.size_le ih

end Level.Abridges

/-- The stack with the same levels, each of them with no more text in it. -/
structure BufferStack.Abridges (plain annotated : BufferStack) : Prop where
  levels : List.Forall₂ Level.Abridges plain.levels annotated.levels
  bounds : plain.bounds = annotated.bounds

namespace BufferStack.Abridges

variable {plain annotated : BufferStack}

theorem depth_eq (abridges : plain.Abridges annotated) : plain.depth = annotated.depth :=
  abridges.levels.length_eq

theorem innermostSize_le (abridges : plain.Abridges annotated) (count : Nat) :
    plain.innermostSize count ≤ annotated.innermostSize count :=
  Level.Abridges.totalSize_le (List.forall₂_take count abridges.levels)

theorem absorbs (abridges : plain.Abridges annotated) (room : annotated.Absorbs) : plain.Absorbs := by
  obtain ⟨levels, -⟩ := abridges
  unfold Absorbs at room ⊢
  generalize plain.levels = left, annotated.levels = right at levels room ⊢
  cases levels with
  | nil => exact room
  | cons inner levels =>
    cases levels with
    | nil => exact room
    | cons outer levels =>
      -- Less text goes into a level with at least as much room.
      exact Nat.le_trans inner.size_le (Nat.le_trans room outer.remaining_le)

theorem absorbed (abridges : plain.Abridges annotated) : plain.absorbed.Abridges annotated.absorbed := by
  obtain ⟨levels, bounds⟩ := abridges
  cases plain
  cases annotated
  cases levels with
  | nil => exact ⟨.nil, bounds⟩
  | cons inner levels =>
    cases levels with
    | nil => exact ⟨.cons inner .nil, bounds⟩
    | cons outer levels => exact ⟨.cons (outer.extend inner.size_le) levels, bounds⟩

theorem absorbedTimes (abridges : plain.Abridges annotated) (steps : Nat) :
    (plain.absorbedTimes steps).Abridges (annotated.absorbedTimes steps) := by
  induction steps generalizing plain annotated with
  | zero => exact abridges
  | succ steps ih => exact ih abridges.absorbed

end BufferStack.Abridges

/-! ## Shorter contexts -/

/-- The context of a run without annotation on a reliable stream, beside that of the same run with annotation. -/
structure Context.Abridges (plain annotated : Context) : Prop where
  plainStyle : plain.options.annotate = false
  reliable : plain.stream.IsReliable
  pool_eq : plain.pool = annotated.pool
  labels_eq : plain.labels = annotated.labels
  stack : plain.stack.Abridges annotated.stack

namespace Context.Abridges

variable {plain annotated : Context}

theorem outline_eq (abridges : plain.Abridges annotated) : plain.outline = annotated.outline := by
  have levels := abridges.stack.levels
  unfold outline
  generalize plain.stack.levels = left, annotated.stack.levels = right at levels ⊢
  induction levels with
  | nil => rfl
  | cons inner _ ih => rw [List.map_cons, List.map_cons, inner.construct_eq, ih]

theorem fits {text longer : String} (abridges : plain.Abridges annotated)
    (shorter : text.utf8ByteSize ≤ longer.utf8ByteSize) (room : annotated.Fits longer) : plain.Fits text := by
  have levels := abridges.stack.levels
  unfold Fits at room ⊢
  generalize plain.stack.levels = left, annotated.stack.levels = right at levels room ⊢
  cases levels with
  | nil => trivial
  | cons inner _ => exact Nat.le_trans shorter (Nat.le_trans room inner.remaining_le)

theorem closable (abridges : plain.Abridges annotated) (room : annotated.Closable) : plain.Closable := by
  have levels := abridges.stack.levels
  have absorbs := abridges.stack.absorbs
  unfold Closable at room ⊢
  generalize plain.stack.levels = left, annotated.stack.levels = right at levels room ⊢
  cases levels with
  | nil => exact absorbs room
  | cons inner levels =>
    cases levels with
    | nil => trivial
    | cons outer levels => exact absorbs room

theorem appended {text longer : String} (abridges : plain.Abridges annotated)
    (shorter : text.utf8ByteSize ≤ longer.utf8ByteSize) :
    (plain.appended text).Abridges (annotated.appended longer) := by
  obtain ⟨plainStyle, reliable, pool, labels, levels, bounds⟩ := abridges
  obtain ⟨_, _, ⟨_, _, _, _⟩, _, _⟩ := plain
  obtain ⟨_, _, ⟨_, _, _, _⟩, _, _⟩ := annotated
  cases levels with
  | nil => exact ⟨plainStyle, reliable, pool, labels, .nil, bounds⟩
  | cons inner levels => exact ⟨plainStyle, reliable, pool, labels, .cons (inner.extend shorter) levels, bounds⟩

theorem opened (abridges : plain.Abridges annotated) (construct : Construct) :
    (plain.opened construct).Abridges (annotated.opened construct) := by
  obtain ⟨-, capacity⟩ := Prod.mk.inj abridges.stack.bounds
  have inner : (⟨construct, "", plain.stack.bufferCapacity⟩ : Level).Abridges
      ⟨construct, "", annotated.stack.bufferCapacity⟩ :=
    ⟨rfl, capacity, Nat.le_refl _⟩
  exact { abridges with stack := ⟨.cons inner abridges.stack.levels, abridges.stack.bounds⟩ }

theorem merged (abridges : plain.Abridges annotated) (count : Nat) :
    (plain.merged count).Abridges (annotated.merged count) :=
  { abridges with stack := abridges.stack.absorbedTimes (count - 1) }

theorem closed (abridges : plain.Abridges annotated) : plain.closed.Abridges annotated.closed := by
  obtain ⟨plainStyle, reliable, pool, labels, levels, bounds⟩ := abridges
  obtain ⟨_, _, ⟨_, _, _, _⟩, _, _⟩ := plain
  obtain ⟨_, _, ⟨_, _, _, _⟩, _, _⟩ := annotated
  cases levels with
  | nil => exact ⟨plainStyle, reliable, pool, labels, .nil, bounds⟩
  | cons inner levels =>
    cases levels with
    | nil => exact ⟨plainStyle, reliable, pool, labels, .nil, bounds⟩
    | cons outer levels =>
      exact ⟨plainStyle, reliable, pool, labels, .cons (outer.extend inner.size_le) levels, bounds⟩

end Context.Abridges

/-! ## Runs without annotation -/

/-- The comparison of a run without annotation with the same run with annotation. The second run is the one that is
known to succeed, so nothing is said for when it does not. -/
def besideAnnotated : Comparison EmitError Context where
  Related := Context.Abridges
  Later _ _ := True
  Lapsed _ _ _ := False
  Excused _ := True
  later_refl _ := trivial
  later_trans _ _ := trivial
  lapsed_later lapse _ := lapse

namespace Emission

variable {α : Type}

/-- It is enough that the run without annotation can do what the other one does. -/
theorem respects_of_follows {action : Emission α}
    (follows : ∀ {plain annotated after value}, Context.Abridges plain annotated → action.Yields annotated value after →
      ∃ plainAfter, action.Yields plain value plainAfter ∧ plainAfter.Abridges after) :
    besideAnnotated.Respects action where
  advances := fun _ => trivial
  agrees := by
    intro plain annotated abridges
    obtain ⟨value, after, yields⟩ | ⟨error, after, stops⟩ := action.yields_or_stops annotated
    · obtain ⟨plainAfter, plainYields, related⟩ := follows abridges yields
      apply Comparison.Agrees.alike (plainYields.1.trans yields.1.symm)
      rw [plainYields.2, yields.2]
      exact related
    · exact .excused stops.1 trivial

theorem append_follows {text longer : String} {plain annotated after : Context} {value : Unit}
    (shorter : text.utf8ByteSize ≤ longer.utf8ByteSize) (abridges : plain.Abridges annotated)
    (yields : (append longer).Yields annotated value after) :
    ∃ plainAfter, (append text).Yields plain value plainAfter ∧ plainAfter.Abridges after := by
  obtain ⟨room, rfl⟩ := append_yields yields
  have appends : (append text).Yields plain value (plain.appended text) :=
    (append_yields_iff abridges.reliable.1).mpr ⟨abridges.fits shorter room, rfl⟩
  exact ⟨_, appends, abridges.appended shorter⟩

theorem push_follows {construct : Construct} {plain annotated after : Context} {value : Unit}
    (abridges : plain.Abridges annotated) (yields : (push construct).Yields annotated value after) :
    ∃ plainAfter, (push construct).Yields plain value plainAfter ∧ plainAfter.Abridges after := by
  obtain ⟨room, rfl⟩ := push_yields_iff.mp yields
  obtain ⟨maxDepth, -⟩ := Prod.mk.inj abridges.stack.bounds
  rw [← abridges.stack.depth_eq, ← maxDepth] at room
  exact ⟨_, push_yields_iff.mpr ⟨room, rfl⟩, abridges.opened construct⟩

theorem merge_follows {count : Nat} {plain annotated after : Context} {value : Unit}
    (abridges : plain.Abridges annotated) (yields : (merge count).Yields annotated value after) :
    ∃ plainAfter, (merge count).Yields plain value plainAfter ∧ plainAfter.Abridges after := by
  obtain ⟨valid, deep, fits, each, rfl⟩ := merge_yields_iff.mp yields
  obtain ⟨-, capacity⟩ := Prod.mk.inj abridges.stack.bounds
  rw [← abridges.stack.depth_eq] at deep
  rw [← capacity] at fits
  -- Merging checks the sum of the levels first, and then the room for each of them.
  have fits := Nat.le_trans (abridges.stack.innermostSize_le count) fits
  have each : ∀ done < count - 1, (plain.stack.absorbedTimes done).Absorbs := by
    intro done fewer
    exact (abridges.stack.absorbedTimes done).absorbs (each done fewer)
  exact ⟨_, merge_yields_iff.mpr ⟨valid, deep, fits, each, rfl⟩, abridges.merged count⟩

theorem close_follows {construct : Construct} {plain annotated after : Context} (abridges : plain.Abridges annotated)
    (yields : close.Yields annotated construct after) :
    ∃ plainAfter, close.Yields plain construct plainAfter ∧ plainAfter.Abridges after := by
  obtain ⟨room, head, rfl⟩ := close_yields yields
  rw [← abridges.outline_eq] at head
  have closes := (close_yields_iff abridges.reliable.1).mpr ⟨abridges.closable room, head, rfl⟩
  exact ⟨_, closes, abridges.closed⟩

end Emission

/-! ## Comments -/

/-- The comment line that annotation puts in front of a fragment, if any. -/
def Fragment.commentText (fragment : Fragment) : String := Inst.lines (fragment.remark true)

theorem Fragment.text_true (fragment : Fragment) : fragment.text true = fragment.commentText ++ fragment.text false := by
  simp [text, emitted, commentText, remark, Inst.lines_append]

theorem Fragment.size_text_le (fragment : Fragment) (annotate : Bool) :
    (fragment.text false).utf8ByteSize ≤ (fragment.text annotate).utf8ByteSize := by
  cases annotate with
  | false => exact Nat.le_refl _
  | true =>
    rw [text_true, String.utf8ByteSize_append]
    exact Nat.le_add_left _ _

theorem Emission.emitFragment_follows {fragment : Fragment} {plain annotated after : Context} {value : Unit}
    (abridges : plain.Abridges annotated) (yields : (emitFragment fragment).Yields annotated value after) :
    ∃ plainAfter, (emitFragment fragment).Yields plain value plainAfter ∧ plainAfter.Abridges after := by
  have shorter := fragment.size_text_le annotated.options.annotate
  rw [← abridges.plainStyle] at shorter
  obtain ⟨plainAfter, appends, related⟩ := append_follows shorter abridges (emitFragment_yields_iff.mp yields)
  exact ⟨plainAfter, emitFragment_yields_iff.mpr appends, related⟩

/-- Every step respects the comparison of a run without annotation with the run with it. -/
def abridging : EmissionComparison where
  toComparison := besideAnnotated
  outline_eq := Context.Abridges.outline_eq
  pool_eq := Context.Abridges.pool_eq
  labels_eq := Context.Abridges.labels_eq
  related_with _ _ abridges := { abridges with pool_eq := rfl, labels_eq := rfl }
  later_with _ _ _ := trivial
  append _ := Emission.respects_of_follows (Emission.append_follows (Nat.le_refl _))
  emitFragment _ := Emission.respects_of_follows Emission.emitFragment_follows
  push _ := Emission.respects_of_follows Emission.push_follows
  merge _ := Emission.respects_of_follows Emission.merge_follows
  close := Emission.respects_of_follows Emission.close_follows

/-! ## Replays without annotation -/

def Options.plain (options : Options) : Options := { options with annotate := false }

def Options.annotated (options : Options) : Options := { options with annotate := true }

namespace Script

open Replay

variable {script : Script} {options : Options}

theorem abridges_begun (options : Options) :
    abridging.onReplay.Related (fresh options.plain).begun (fresh options.annotated).begun := by
  have starts : (fresh options.plain).context.Abridges (fresh options.annotated).context :=
    ⟨rfl, ⟨rfl, rfl⟩, rfl, rfl, .nil, rfl⟩
  exact ⟨rfl, rfl, starts.appended (Fragment.prolog.size_text_le true)⟩

/-- What succeeds with annotation succeeds without it. -/
theorem plain_succeeds (succeeds : (script.replay options.annotated {}).result = .ok ()) :
    (script.replay options.plain {}).result = .ok () := by
  obtain ⟨requested, applies, unbuffered, -⟩ := run_yields ⟨succeeds, rfl⟩
  have applies : (applyAll 0 script.requests).Yields (fresh options.annotated).begun () requested := applies
  have agrees : abridging.AgreesOn 0 script.requests (fresh options.plain).begun (fresh options.annotated).begun :=
    abridging.applyAll_agrees (abridges_begun options)
  -- The annotated run did not stop, so the two runs are alike up to the final check that nothing is buffered.
  cases agrees with
  | excused stopped _ => cases applies.1.symm.trans stopped
  | lapsed _ _ _ _ _ _ lapse => cases lapse
  | alike same related =>
    obtain ⟨-, -, abridges⟩ := related
    rw [applies.2] at abridges
    have plainApplies : (applyAll 0 script.requests).Yields (fresh options.plain).begun () _ :=
      ⟨same.trans applies.1, rfl⟩
    have closed : (applyAll 0 script.requests (fresh options.plain).begun).state.context.stack.levels = [] := by
      have levels := abridges.stack.levels
      rwa [unbuffered, List.forall₂_nil_right_iff] at levels
    have ends := run_ends (fresh options.plain) rfl rfl plainApplies abridges.reliable
    rw [if_pos closed] at ends
    exact ends

end Script

/-! ## Comment lines -/

/-- Whether a line starts with a tab and a number sign. -/
def isCommentLine : (line : List Char) → Bool
  | '\t' :: '#' :: _ => true
  | _ => false

/-- The text without the lines that start with a tab and a number sign. -/
def withoutComments (text : String) : String :=
  String.ofList (['\n'].intercalate ((text.toList.splitOn '\n').filter fun line => !isCommentLine line))

/-- The instruction is no comment and does not look like one. -/
def Inst.IsProper : Inst → Prop
  | comment _ => False
  | directive text => text.toList.head? ≠ some '\t'
  | _ => True

theorem Inst.isCommentLine_of_isProper {inst : Inst} (proper : inst.IsProper) : isCommentLine inst.row = false := by
  cases inst with
  | comment text => cases proper
  | directive content =>
    -- A directive stands without a tab in front, so only its own text could begin like a comment.
    have other : content.toList.head? ≠ some '\t' := proper
    cases shape : content.toList with
    | nil => simp [row, text, isFlush, isCommentLine, shape]
    | cons first rest =>
      rw [shape] at other
      simp_all [row, text, isFlush, isCommentLine]
  | op operator dst lhs rhs | opImm operator dst src value =>
    cases operator <;> simp [row, text, isFlush, isCommentLine, Operator.mnemonic, Operator.immediateMnemonic]
  | _ => simp [row, text, isFlush, isCommentLine, Label.text]

theorem Inst.isCommentLine_comment (note : String) : isCommentLine (comment note).row = true := by
  simp [row, text, isFlush, isCommentLine]

namespace Fragment

def IsProper (fragment : Fragment) : Prop := ∀ inst ∈ fragment.insts, inst.IsProper

/-- Of what a fragment emits with annotation, what it emits without is all that is no comment. -/
theorem filter_emitted {fragment : Fragment} (proper : fragment.IsProper) :
    (fragment.emitted true).filter (fun inst => !isCommentLine inst.row) = fragment.emitted false := by
  have insts : fragment.insts.filter (fun inst => !isCommentLine inst.row) = fragment.insts := by
    apply List.filter_eq_self.mpr
    intro inst member
    simp [Inst.isCommentLine_of_isProper (proper inst member)]
  have remark : (fragment.remark true).filter (fun inst => !isCommentLine inst.row) = [] := by
    unfold Fragment.remark
    split <;> simp [Inst.isCommentLine_comment]
  rw [emitted, List.filter_append, remark, insts]
  rfl

theorem filter_allEmitted {fragments : List Fragment} (proper : ∀ fragment ∈ fragments, fragment.IsProper) :
    (allEmitted true fragments).filter (fun inst => !isCommentLine inst.row) = allEmitted false fragments := by
  induction fragments with
  | nil => rfl
  | cons fragment rest ih =>
    have here := filter_emitted (proper fragment List.mem_cons_self)
    have others := ih fun other member => proper other (List.mem_cons_of_mem _ member)
    simp only [allEmitted, List.flatMap_cons, List.filter_append] at others ⊢
    rw [here, others]

/-- Where no line feed comes in from outside, the comments can be told by their lines. -/
theorem withoutComments_allText {fragments : List Fragment} (proper : ∀ fragment ∈ fragments, fragment.IsProper)
    (linewise : ∀ fragment ∈ fragments, fragment.IsLinewise) :
    withoutComments (allText true fragments) = allText false fragments := by
  have split (annotate : Bool) : (allText annotate fragments).toList.splitOn '\n' =
      (allEmitted annotate fragments).map Inst.row ++ [[]] := by
    apply Inst.splitOn_lines
    intro inst member
    obtain ⟨fragment, isPart, emitted⟩ := List.mem_flatMap.mp member
    exact linewise fragment isPart annotate inst emitted
  have kept : ((allText true fragments).toList.splitOn '\n').filter (fun line => !isCommentLine line) =
      (allText false fragments).toList.splitOn '\n' := by
    rw [split, split, List.filter_append, List.filter_map, ← filter_allEmitted proper]
    rfl
  rw [withoutComments, kept, List.intercalate_splitOn, String.ofList_toList]

end Fragment

theorem Operation.isProper (operation : Operation) : operation.fragment.IsProper := by
  cases operation <;> simp [Fragment.IsProper, fragment, insts, Service.call, Inst.IsProper]

theorem isProper_literalSection (strings : List String) : (literalSection strings).IsProper := by
  intro inst member
  obtain rfl | ⟨content, index, stored, rfl⟩ := by simpa [literalSection, Fragment.dataSection] using member
  · simp [Inst.IsProper]
  · simp [Inst.IsProper, asciizLine, literalName]

theorem isProper_programFragments (operations : List Operation) (strings : List String) :
    ∀ fragment ∈ programFragments operations strings, fragment.IsProper := by
  intro fragment member
  obtain rfl | ⟨operation, -, rfl⟩ | rfl | rfl := mem_programFragments.mp member
  · simp [Fragment.IsProper, Fragment.prolog, Inst.IsProper, asciizLine, newlineSymbol]
  · exact operation.isProper
  · simp [Fragment.IsProper, Fragment.epilog, Service.call, Inst.IsProper]
  · exact isProper_literalSection strings

/-! ## Which fragments have a comment -/

theorem Fragment.commentText_eq (fragment : Fragment) :
    fragment.commentText = match fragment.note with
      | some note => (Inst.comment note).line
      | none => "" := by
  cases note : fragment.note <;> simp [commentText, remark, note]

theorem Fragment.commentText_eq_empty_iff {fragment : Fragment} : fragment.commentText = "" ↔ fragment.note = none := by
  rw [commentText_eq]
  cases fragment.note <;> simp [Inst.line, Inst.isFlush]

theorem note_eq_none_iff {operations : List Operation} {strings : List String} {fragment : Fragment}
    (member : fragment ∈ programFragments operations strings) :
    fragment.note = none ↔
      (∃ target, fragment = Operation.fragment (.place target)) ∨ fragment = literalSection strings := by
  constructor
  · intro silent
    obtain rfl | ⟨operation, -, rfl⟩ | rfl | rfl := mem_programFragments.mp member
    · cases silent
    · cases operation with
      | place target => exact .inl ⟨target, rfl⟩
      | _ => cases silent
    · cases silent
    · exact .inr rfl
  · intro unannotated
    obtain ⟨target, rfl⟩ | rfl := unannotated
    · rfl
    · rfl

theorem Fragment.allText_true (fragments : List Fragment) :
    allText true fragments = String.join (fragments.map fun fragment => fragment.commentText ++ fragment.text false) := by
  induction fragments with
  | nil => rfl
  | cons fragment rest ih => rw [allText_cons, text_true, ih, List.map_cons, String.join_cons]

theorem Fragment.allText_false (fragments : List Fragment) :
    allText false fragments = String.join (fragments.map fun fragment => fragment.text false) := by
  induction fragments with
  | nil => rfl
  | cons fragment rest ih => rw [allText_cons, ih, List.map_cons, String.join_cons]

/-- Annotation only adds comments. Where a replay succeeds with it, so does the replay without, with the same figures.
The program is the same pieces in the same order, and with annotation each piece follows its comment: a line of its own,
which only placed labels and the string data lack. Where the script brings in no line feed, the program without
annotation is what is left of the other one without its comment lines. -/
theorem Script.annotation_only_adds_comments (script : Script) (options : Options) {stream : Stream}
    (reliable : stream.IsReliable) (succeeds : (script.replay options.annotated stream).result = .ok ()) :
    (script.replay options.plain stream).result = .ok () ∧
    (script.replay options.plain stream).state.summary = (script.replay options.annotated stream).state.summary ∧
    ∃ operations pieces plain annotated, script.operations? = some operations ∧
      pieces = programFragments operations script.strings ∧
      (script.replay options.plain stream).state.context.stream.written = stream.written ++ plain.toUTF8 ∧
      (script.replay options.annotated stream).state.context.stream.written = stream.written ++ annotated.toUTF8 ∧
      plain = String.join (pieces.map fun piece => piece.text false) ∧
      annotated = String.join (pieces.map fun piece => piece.commentText ++ piece.text false) ∧
      (∀ piece ∈ pieces,
        (piece.commentText = "" ↔
          (∃ target, piece = Operation.fragment (.place target)) ∨ piece = literalSection script.strings) ∧
        (piece.commentText ≠ "" → ∃ note, piece.commentText = (Inst.comment note).line)) ∧
      (script.IsLinewise → withoutComments annotated = plain) := by
  have plainSucceeds : (script.replay options.plain stream).result = .ok () := by
    have unlimited (style : Options) := (script.replay_of_reliable style reliable).1
    rw [unlimited] at succeeds ⊢
    exact plain_succeeds succeeds
  obtain ⟨operations, last, run, written, summary⟩ := replay_written succeeds
  obtain ⟨plainOperations, plainLast, plainRun, plainWritten, plainSummary⟩ := replay_written plainSucceeds
  cases run.symm.trans plainRun
  have emits : script.operations? = some operations := by simp [operations?, run]
  refine ⟨plainSucceeds, plainSummary.trans summary.symm, operations, programFragments operations script.strings,
    _, _, emits, rfl, plainWritten, written, Fragment.allText_false _, Fragment.allText_true _, ?_, ?_⟩
  · intro piece member
    constructor
    · rw [Fragment.commentText_eq_empty_iff, note_eq_none_iff member]
    · intro commented
      rw [Fragment.commentText_eq] at commented ⊢
      cases note : piece.note with
      | some remark => exact ⟨remark, rfl⟩
      | none => simp [note] at commented
  · intro linewise
    exact Fragment.withoutComments_allText (isProper_programFragments _ _)
      (isLinewise_programFragments linewise emits)

/-- A conditional with two branches that print string literals. -/
theorem Script.annotation_only_adds_comments_branch :
    (Demo.branch.replay (Options.annotated {}) {}).result = .ok () ∧
      (Demo.branch.replay (Options.plain {}) {}).result = .ok () ∧
      ∃ plain annotated : String,
        (Demo.branch.replay (Options.plain {}) {}).state.context.stream.written = plain.toUTF8 ∧
        (Demo.branch.replay (Options.annotated {}) {}).state.context.stream.written = annotated.toUTF8 ∧
        withoutComments annotated = plain := by
  have succeeds : (Demo.branch.replay (Options.annotated {}) {}).result = .ok () := eq_ok_of_isOk (by decide +kernel)
  have linewise : Demo.branch.IsLinewise := by
    constructor
    · intro dst symbol asked
      obtain ⟨-, rfl⟩ | ⟨-, rfl⟩ := by simpa [Demo.branch] using asked
      · decide
      · decide
    · decide
  obtain ⟨plainSucceeds, -, _, _, plain, annotated, -, -, plainWritten, written, -, -, -, uncommented⟩ :=
    annotation_only_adds_comments Demo.branch {} ⟨rfl, rfl⟩ succeeds
  rw [ByteArray.empty_append] at plainWritten written
  exact ⟨succeeds, plainSucceeds, plain, annotated, plainWritten, written, uncommented linewise⟩

end MipsBackend
