import MipsBackend.Proofs.DirectEmission
import MipsBackend.Proofs.LineBreaks
import MipsBackend.Script.Reader

/-! # Lines of a program

Every instruction ends its own line. Inside, an instruction can break only at a line feed that stands in the symbol of
an address or in a string literal, and these are copied as they are. So a program has a line for each instruction, and
one more for each line feed that its script brings along.

* `linesOf`: the lines of a text; there are as many as line feeds (`length_linesOf`).
* `Inst.linesOf_lines`, `Inst.lineFeeds_lines`: the lines of instructions are those of each, in order.
* `Operation.innerFeeds_fragments`, `innerFeeds_literalSection`: the line feeds inside come from symbols and literals.
* `Script.lines_of_replay`: what that means for the output of a replay.
-/

namespace MipsBackend

/-! ## Texts -/

def lineFeeds (text : String) : Nat := text.toList.count '\n'

@[simp] theorem lineFeeds_append (left right : String) : lineFeeds (left ++ right) = lineFeeds left + lineFeeds right := by
  simp [lineFeeds]

theorem lineFeeds_eq_zero_iff {text : String} : lineFeeds text = 0 ↔ IsOneLine text := List.count_eq_zero

theorem lineFeeds_of_isOneLine {text : String} (oneLine : IsOneLine text) : lineFeeds text = 0 :=
  lineFeeds_eq_zero_iff.mpr oneLine

theorem lineFeeds_join_eq_zero_iff {texts : List String} :
    lineFeeds (String.join texts) = 0 ↔ ∀ text ∈ texts, IsOneLine text := by
  simp [lineFeeds_eq_zero_iff, IsOneLine, String.toList_join]

/-- The lines of a text, each without the line feed that ends it. What stands behind the last line feed is no line. -/
def linesOf (text : String) : List (List Char) := (text.toList.splitOn '\n').dropLast

/-- A text is cut into one part more than it has line feeds. -/
theorem length_splitOn_lineFeed (text : List Char) : (text.splitOn '\n').length = text.count '\n' + 1 := by
  induction text with
  | nil => rfl
  | cons char rest ih =>
    rw [List.splitOn_cons_eq_if_modifyHead]
    by_cases isFeed : char = '\n'
    · simp [isFeed, ih]
    · simp [isFeed, ih]

theorem length_linesOf (text : String) : (linesOf text).length = lineFeeds text := by
  rw [linesOf, List.length_dropLast, length_splitOn_lineFeed, lineFeeds, Nat.add_sub_cancel]

/-- Where a line feed ends the first text, the lines of two texts in a row are those of each. -/
theorem linesOf_append (left right : String) :
    linesOf (left ++ "\n" ++ right) = linesOf (left ++ "\n") ++ linesOf right := by
  have parts (rest : List Char) : (left.toList ++ '\n' :: rest).splitOn '\n' =
      left.toList.splitOn '\n' ++ rest.splitOn '\n' := List.splitOn_append_cons_self _ _
  have whole : (left ++ "\n" ++ right).toList = left.toList ++ '\n' :: right.toList := by simp
  have first : (left ++ "\n").toList = left.toList ++ '\n' :: [] := by simp
  rw [linesOf, linesOf, linesOf, whole, first, parts, parts, List.splitOn_nil,
    List.dropLast_append_of_ne_nil (List.splitOn_ne_nil _ _), List.dropLast_concat]

/-! ## Instructions -/

namespace Inst

/-- Line feeds inside instructions, those that end their lines apart. -/
def innerFeeds (insts : List Inst) : Nat := lineFeeds (String.join (insts.map text))

@[simp] theorem innerFeeds_nil : innerFeeds [] = 0 := rfl

@[simp] theorem innerFeeds_cons (inst : Inst) (rest : List Inst) :
    innerFeeds (inst :: rest) = lineFeeds inst.text + innerFeeds rest := by
  simp [innerFeeds, String.join_cons]

@[simp] theorem innerFeeds_append (left right : List Inst) :
    innerFeeds (left ++ right) = innerFeeds left + innerFeeds right := by
  simp [innerFeeds, String.join_append]

theorem innerFeeds_eq_zero {insts : List Inst} (oneLine : ∀ inst ∈ insts, IsOneLine inst.text) :
    innerFeeds insts = 0 := by
  apply lineFeeds_join_eq_zero_iff.mpr
  intro text member
  obtain ⟨inst, emitted, rfl⟩ := List.mem_map.mp member
  exact oneLine inst emitted

theorem line_eq (inst : Inst) : ∃ front, inst.line = front ++ "\n" ∧ lineFeeds front = lineFeeds inst.text := by
  by_cases flush : inst.isFlush
  · exact ⟨inst.text, by simp [line, flush], rfl⟩
  · exact ⟨"\t" ++ inst.text, by simp [line, flush], by simp +decide [lineFeeds_of_isOneLine]⟩

theorem lineFeeds_lines (insts : List Inst) : lineFeeds (lines insts) = insts.length + innerFeeds insts := by
  induction insts with
  | nil => rfl
  | cons inst rest ih =>
    obtain ⟨front, ends, same⟩ := inst.line_eq
    have last : lineFeeds "\n" = 1 := rfl
    rw [lines_cons, lineFeeds_append, ih, ends, lineFeeds_append, same, last, innerFeeds_cons, List.length_cons]
    omega

/-- The lines of instructions are the lines of each of them, in order. -/
theorem linesOf_lines (insts : List Inst) : linesOf (lines insts) = insts.flatMap fun inst => linesOf inst.line := by
  induction insts with
  | nil => rfl
  | cons inst rest ih =>
    obtain ⟨front, ends, -⟩ := inst.line_eq
    rw [lines_cons, List.flatMap_cons, ← ih, ends, linesOf_append]

theorem linesOf_lines_of_oneLine {insts : List Inst} (oneLine : ∀ inst ∈ insts, IsOneLine inst.text) :
    linesOf (lines insts) = insts.map row := by
  rw [linesOf, splitOn_lines oneLine, List.dropLast_concat]

end Inst

/-! ## Fragments -/

theorem Fragment.IsLinewise.innerFeeds_emitted {fragment : Fragment} (linewise : fragment.IsLinewise)
    (annotate : Bool) : Inst.innerFeeds (fragment.emitted annotate) = 0 :=
  Inst.innerFeeds_eq_zero (linewise annotate)

/-- How often the symbol of an address is written: annotation repeats it in the comment. -/
def symbolCopies (annotate : Bool) : Nat := if annotate then 2 else 1

/-- The line feeds inside an operation are those of its symbol. -/
theorem Operation.innerFeeds_fragment (annotate : Bool) (operation : Operation) :
    Inst.innerFeeds (operation.fragment.emitted annotate) =
      symbolCopies annotate * lineFeeds (String.join operation.symbol?.toList) := by
  cases operation with
  | la dst symbol =>
    have own : lineFeeds (Inst.la dst symbol).text = lineFeeds symbol := by
      simp +decide [Inst.text, Reg.text, lineFeeds_of_isOneLine, isOneLine_name]
    have remark : lineFeeds (Inst.comment (dst.name ++ " = " ++ symbol)).text = lineFeeds symbol := by
      simp +decide [Inst.text, lineFeeds_of_isOneLine, isOneLine_name]
    cases annotate with
    | false => simp [Fragment.emitted, Fragment.remark, fragment, insts, symbol?, symbolCopies, String.join_cons, own]
    | true =>
      simp [Fragment.emitted, Fragment.remark, fragment, insts, note, symbol?, symbolCopies, String.join_cons, own, remark,
        Nat.two_mul]
  | _ =>
    rw [(isLinewise (by simp [symbol?])).innerFeeds_emitted]
    rfl

theorem Operation.innerFeeds_fragments (annotate : Bool) (operations : List Operation) :
    Inst.innerFeeds (Fragment.allEmitted annotate (operations.map fragment)) =
      symbolCopies annotate * lineFeeds (String.join (operations.filterMap symbol?)) := by
  induction operations with
  | nil => rfl
  | cons operation rest ih =>
    have joined : String.join ((operation :: rest).filterMap symbol?) =
        String.join operation.symbol?.toList ++ String.join (rest.filterMap symbol?) := by
      rw [List.filterMap_cons, ← String.join_append]
      cases operation.symbol? <;> rfl
    rw [joined, lineFeeds_append, Nat.mul_add, ← ih, ← innerFeeds_fragment]
    exact Inst.innerFeeds_append _ _

theorem innerFeeds_asciizLines (index : Nat) (texts : List String) :
    Inst.innerFeeds ((texts.zipIdx index).map fun entry => asciizLine (literalName entry.2) entry.1) =
      lineFeeds (String.join texts) := by
  induction texts generalizing index with
  | nil => rfl
  | cons text rest ih =>
    have own : lineFeeds (asciizLine (literalName index) text).text = lineFeeds text := by
      simp +decide [asciizLine, Inst.text, lineFeeds_of_isOneLine, isOneLine_literalName]
    rw [List.zipIdx_cons, List.map_cons, Inst.innerFeeds_cons, own, ih, String.join_cons, lineFeeds_append]

theorem innerFeeds_literalSection (annotate : Bool) (texts : List String) :
    Inst.innerFeeds ((literalSection texts).emitted annotate) = lineFeeds (String.join texts) := by
  rw [emitted_literalSection, Inst.innerFeeds_cons, innerFeeds_asciizLines, lineFeeds_of_isOneLine (by decide), Nat.zero_add]

/-- The data section has its own line and one for each literal, and one more for each line feed in them. -/
theorem lineFeeds_literalSection (annotate : Bool) (texts : List String) :
    lineFeeds ((literalSection texts).text annotate) = 1 + texts.length + lineFeeds (String.join texts) := by
  rw [Fragment.text, Inst.lineFeeds_lines, innerFeeds_literalSection, emitted_literalSection, List.length_cons,
    List.length_map, List.length_zipIdx, Nat.add_comm 1]

/-! ## Programs -/

/-- Line feeds that a script brings into its program. -/
def Script.broughtFeeds (annotate : Bool) (script : Script) : Nat :=
  symbolCopies annotate * lineFeeds (String.join (script.requests.filterMap Request.symbol?)) +
    lineFeeds (String.join script.strings)

theorem Script.broughtFeeds_eq_zero_iff {annotate : Bool} {script : Script} :
    script.broughtFeeds annotate = 0 ↔ script.IsLinewise := by
  have copied : symbolCopies annotate ≠ 0 := by cases annotate <;> decide
  rw [broughtFeeds, Nat.add_eq_zero_iff, Nat.mul_eq_zero, or_iff_right copied, lineFeeds_join_eq_zero_iff,
    lineFeeds_join_eq_zero_iff]
  constructor
  · intro oneLine
    constructor
    · intro dst symbol asked
      exact oneLine.1 symbol (List.mem_filterMap.mpr ⟨_, asked, rfl⟩)
    · exact oneLine.2
  · intro linewise
    constructor
    · intro symbol loaded
      obtain ⟨request, asked, names⟩ := List.mem_filterMap.mp loaded
      obtain ⟨dst, rfl⟩ := Request.symbol?_eq_some_iff.mp names
      exact linewise.symbols dst symbol asked
    · exact linewise.strings

instance (script : Script) : Decidable script.IsLinewise :=
  decidable_of_iff (script.broughtFeeds false = 0) Script.broughtFeeds_eq_zero_iff

namespace Script

variable {script : Script} {operations : List Operation} {last : Direct}

/-- All line feeds inside the instructions of a program come from its script. -/
theorem innerFeeds_program (run : ({} : Direct).applyAll 0 script.requests = some (operations, last)) (annotate : Bool) :
    Inst.innerFeeds (Fragment.allEmitted annotate (programFragments operations script.strings)) =
      script.broughtFeeds annotate := by
  have parts : Fragment.allEmitted annotate (programFragments operations script.strings) =
      Fragment.prolog.emitted annotate ++ (Fragment.allEmitted annotate (operations.map Operation.fragment) ++
        (Fragment.epilog.emitted annotate ++ (literalSection script.strings).emitted annotate)) := by
    simp [Fragment.allEmitted, programFragments]
  rw [parts, Inst.innerFeeds_append, Inst.innerFeeds_append, Inst.innerFeeds_append,
    Fragment.isLinewise_prolog.innerFeeds_emitted, Operation.innerFeeds_fragments, Direct.symbols_of_applyAll run,
    Fragment.isLinewise_epilog.innerFeeds_emitted, innerFeeds_literalSection, Nat.zero_add, Nat.zero_add, broughtFeeds]

theorem lineFeeds_program (run : ({} : Direct).applyAll 0 script.requests = some (operations, last)) (annotate : Bool) :
    lineFeeds (Fragment.allText annotate (programFragments operations script.strings)) =
      (Fragment.allEmitted annotate (programFragments operations script.strings)).length +
        script.broughtFeeds annotate := by
  rw [Fragment.allText, Inst.lineFeeds_lines, innerFeeds_program run]

/-- Every instruction of a program is one line exactly if the script brings no line feed along. -/
theorem linesOf_program_eq_iff (run : ({} : Direct).applyAll 0 script.requests = some (operations, last))
    (annotate : Bool) :
    linesOf (Fragment.allText annotate (programFragments operations script.strings)) =
      (Fragment.allEmitted annotate (programFragments operations script.strings)).map Inst.row ↔ script.IsLinewise := by
  constructor
  · intro oneEach
    -- As many lines as instructions leave no line feed for the script.
    have lengths := congrArg List.length oneEach
    rw [length_linesOf, lineFeeds_program run, List.length_map] at lengths
    exact broughtFeeds_eq_zero_iff.mp (Nat.add_eq_left.mp lengths)
  · intro linewise
    have emits : script.operations? = some operations := by simp [operations?, run]
    apply Inst.linesOf_lines_of_oneLine
    intro inst member
    obtain ⟨fragment, isPart, emitted⟩ := List.mem_flatMap.mp member
    exact isLinewise_programFragments linewise emits fragment isPart annotate inst emitted

end Script

/-- The lines of a program are the lines of its instructions, in order: one for each instruction, and one more for each
line feed that the script brings along. So every instruction is one line exactly if no symbol and no string literal of
the script has a line feed. The data section behind the epilog has its own line, one for each literal, and one more for
each line feed in them. -/
theorem Script.lines_of_replay (script : Script) (options : Options) (stream : Stream)
    (succeeds : (script.replay options stream).result = .ok ()) :
    ∃ operations insts front data,
      script.operations? = some operations ∧
      insts = Fragment.allEmitted options.annotate (programFragments operations script.strings) ∧
      (script.replay options stream).state.context.stream.written = stream.written ++ (front ++ data).toUTF8 ∧
      front = Fragment.prolog.text options.annotate ++ Operation.allText options.annotate operations ++
        Fragment.epilog.text options.annotate ∧
      data = (literalSection script.strings).text options.annotate ∧
      front ++ data = Inst.lines insts ∧
      linesOf (front ++ data) = (insts.flatMap fun inst => linesOf inst.line) ∧
      lineFeeds (front ++ data) = insts.length + script.broughtFeeds options.annotate ∧
      (linesOf (front ++ data) = insts.map Inst.row ↔ script.IsLinewise) ∧
      (linesOf data).length = 1 + script.strings.length + lineFeeds (String.join script.strings) := by
  obtain ⟨operations, last, run, written, -⟩ := replay_written succeeds
  have emits : script.operations? = some operations := by simp [operations?, run]
  have parts := allText_programFragments options.annotate operations script.strings
  refine ⟨operations, _, _, _, emits, rfl, parts ▸ written, rfl, rfl, parts.symm, ?_, ?_, ?_, ?_⟩
  · rw [← parts, Fragment.allText, Inst.linesOf_lines]
  · rw [← parts, lineFeeds_program run]
  · rw [← parts, linesOf_program_eq_iff run]
  · rw [length_linesOf, lineFeeds_literalSection]

/-- A conditional with two branches that print string literals, on one line each. -/
theorem Script.lines_of_replay_branch :
    (Demo.branch.replay {} {}).result = .ok () ∧ Demo.branch.IsLinewise ∧
      ∃ operations insts front data,
        Demo.branch.operations? = some operations ∧
        insts = Fragment.allEmitted false (programFragments operations Demo.branch.strings) ∧
        (Demo.branch.replay {} {}).state.context.stream.written = (front ++ data).toUTF8 ∧
        linesOf (front ++ data) = insts.map Inst.row ∧ (linesOf data).length = 3 := by
  have succeeds : (Demo.branch.replay {} {}).result = .ok () := eq_ok_of_isOk (by decide +kernel)
  have linewise : Demo.branch.IsLinewise := by decide +kernel
  obtain ⟨operations, insts, front, data, emits, emitted, written, -, -, -, -, -, oneEach, literals⟩ :=
    lines_of_replay Demo.branch {} {} succeeds
  rw [ByteArray.empty_append] at written
  exact ⟨succeeds, linewise, operations, insts, front, data, emits, emitted, written, oneEach.mpr linewise, literals⟩

/-- A literal with line feeds is accepted and copied as it is. The program has nine instructions and eleven lines, and
the data section of this one literal has a directive in it that no instruction stands for. In the same way the symbol
of an address can hold another instruction. -/
theorem Script.free_text_spans_lines :
    Script.parse "\x7b\"strings\":[\"one\\n.text\\ntwo\"],\"requests\":[]\x7d" = .ok ⟨["one\n.text\ntwo"], []⟩ ∧
      (Script.replay ⟨["one\n.text\ntwo"], []⟩ {} {}).result = .ok () ∧
      linesOf (Inst.la .a0 "x\n\tsyscall").line = [(Inst.la .a0 "x").row, Inst.syscall.row] ∧
      ∃ (insts : List Inst) (front data : String),
        insts = Fragment.allEmitted false (programFragments [] ["one\n.text\ntwo"]) ∧
        (Script.replay ⟨["one\n.text\ntwo"], []⟩ {} {}).state.context.stream.written = (front ++ data).toUTF8 ∧
        front = Fragment.prolog.text false ++ Fragment.epilog.text false ∧
        insts.length = 9 ∧ (linesOf (front ++ data)).length = 11 ∧
        linesOf data = [".data".toList, "__str0: .asciiz \"one".toList, ".text".toList, "two\"".toList] := by
  have succeeds : (Script.replay ⟨["one\n.text\ntwo"], []⟩ {} {}).result = .ok () := eq_ok_of_isOk (by decide +kernel)
  obtain ⟨operations, last, run, written, -⟩ := replay_written succeeds
  cases run
  rw [ByteArray.empty_append, allText_programFragments, Operation.allText_nil, String.append_empty] at written
  refine ⟨by decide +kernel, succeeds, by decide +kernel, _, _, _, rfl, written, rfl, ?_, ?_, ?_⟩
  · decide +kernel
  · decide +kernel
  · decide +kernel

end MipsBackend
