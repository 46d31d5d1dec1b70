import MipsBackend.Proofs.Outcome
import MipsBackend.Script.Direct

/-! # Line breaks

Free text can get into an instruction through the symbol of an address, a directive or a comment, and only there can
a line feed come from.

* `IsOneLine`: a text without a line feed.
* `Inst.isOneLine_text`: an instruction is one line if its free text is.
* `Script.isLinewise_programFragments`: so are all instructions of a program whose script brings no line feed.
* `Direct.symbols_of_applyAll`: the symbols in a program are those that its requests name.
* `Inst.splitOn_lines`: the lines of instructions, taken apart at the line feeds.
-/

namespace MipsBackend

def IsOneLine (text : String) : Prop := '\n' ∉ text.toList

instance (text : String) : Decidable (IsOneLine text) := inferInstanceAs (Decidable ('\n' ∉ text.toList))

@[simp] theorem isOneLine_append {left right : String} :
    IsOneLine (left ++ right) ↔ IsOneLine left ∧ IsOneLine right := by
  simp [IsOneLine]

/-! ## Texts without free parts -/

theorem isOneLine_name (reg : Reg) : IsOneLine reg.name := by
  cases reg <;> decide

theorem isOneLine_mnemonic (operator : Operator) : IsOneLine operator.mnemonic := by
  cases operator <;> decide

theorem isOneLine_immediateMnemonic (operator : Operator) : IsOneLine operator.immediateMnemonic := by
  cases operator <;> decide

theorem not_mem_repr {char : Char} (noDigit : char.isDigit = false) (value : Nat) : char ∉ (Nat.repr value).toList := by
  intro member
  rw [Nat.toList_repr] at member
  have digit := Nat.isDigit_of_mem_toDigits (by decide) (by decide) member
  exact absurd digit (by simp [noDigit])

theorem not_mem_immediateText {char : Char} (noDigit : char.isDigit = false) (noSign : char ≠ '-') (value : Int64) :
    char ∉ (immediateText value).toList := by
  unfold immediateText
  cases value.toInt with
  | ofNat magnitude => exact not_mem_repr noDigit magnitude
  | negSucc magnitude => simpa [Int.repr, noSign] using not_mem_repr noDigit (magnitude + 1)

theorem isOneLine_repr (value : Nat) : IsOneLine (Nat.repr value) := not_mem_repr rfl value

theorem isOneLine_immediateText (value : Int64) : IsOneLine (immediateText value) :=
  not_mem_immediateText rfl (by decide) value

theorem isOneLine_literalName (index : Nat) : IsOneLine (literalName index) :=
  isOneLine_append.mpr ⟨by decide, isOneLine_repr index⟩

/-! ## Instructions -/

/-- The part of an instruction that may be any text. -/
def Inst.freeText? : Inst → Option String
  | la _ symbol => some symbol
  | directive text | comment text => some text
  | _ => none

theorem Inst.isOneLine_text {inst : Inst} (free : ∀ text ∈ inst.freeText?, IsOneLine text) : IsOneLine inst.text := by
  cases inst <;>
    simp +decide [text, freeText?, Reg.text, Label.text, isOneLine_name, isOneLine_mnemonic,
      isOneLine_immediateMnemonic, isOneLine_immediateText, isOneLine_repr] at free ⊢
  all_goals assumption

/-! ## Fragments -/

/-- Every instruction of the fragment, and the comment in front of it, is one line. -/
def Fragment.IsLinewise (fragment : Fragment) : Prop :=
  ∀ annotate, ∀ inst ∈ fragment.emitted annotate, IsOneLine inst.text

theorem Fragment.isLinewise_of {fragment : Fragment} (note : ∀ text ∈ fragment.note, IsOneLine text)
    (insts : ∀ inst ∈ fragment.insts, ∀ text ∈ inst.freeText?, IsOneLine text) : fragment.IsLinewise := by
  intro annotate inst member
  apply Inst.isOneLine_text
  intro text isFree
  obtain remark | own := List.mem_append.mp member
  · simp only [Fragment.remark] at remark
    split at remark
    next isNote =>
      obtain rfl := List.mem_singleton.mp remark
      obtain rfl := Option.some.inj isFree
      exact note _ isNote
    next => cases remark
  · exact insts inst own text isFree

/-- The symbol whose address an operation loads, if it is one that the script chooses. -/
def Operation.symbol? : Operation → Option String
  | la _ symbol => some symbol
  | _ => none

theorem Operation.isLinewise {operation : Operation} (symbol : ∀ text ∈ operation.symbol?, IsOneLine text) :
    operation.fragment.IsLinewise := by
  apply Fragment.isLinewise_of
  · cases operation <;>
      simp +decide [fragment, note, symbol?, Label.text, isOneLine_name, isOneLine_mnemonic, isOneLine_immediateText,
        isOneLine_repr] at symbol ⊢
    assumption
  · cases operation <;>
      simp +decide [fragment, insts, symbol?, Inst.freeText?, Service.call] at symbol ⊢
    assumption

theorem Fragment.isLinewise_prolog : prolog.IsLinewise := by
  apply isLinewise_of <;> decide

theorem Fragment.isLinewise_epilog : epilog.IsLinewise := by
  apply isLinewise_of <;> decide

theorem isLinewise_literalSection {strings : List String} (oneLine : ∀ text ∈ strings, IsOneLine text) :
    (literalSection strings).IsLinewise := by
  apply Fragment.isLinewise_of
  · simp [literalSection, Fragment.dataSection]
  · intro inst member text isFree
    obtain rfl | ⟨content, index, stored, rfl⟩ := by simpa [literalSection, Fragment.dataSection] using member
    · obtain rfl := Option.some.inj isFree
      decide
    · obtain rfl := Option.some.inj isFree
      have content := oneLine content (List.mem_of_getElem? (List.mk_mem_zipIdx_iff_getElem?.mp stored))
      simp +decide [isOneLine_literalName, content]

/-! ## Scripts -/

theorem mem_programFragments {operations : List Operation} {strings : List String} {fragment : Fragment} :
    fragment ∈ programFragments operations strings ↔
      fragment = .prolog ∨ (∃ operation ∈ operations, operation.fragment = fragment) ∨ fragment = .epilog ∨
        fragment = literalSection strings := by
  simp [programFragments]

/-- The symbol whose address a request asks for. -/
def Request.symbol? : Request → Option String
  | .la _ symbol => some symbol
  | _ => none

theorem Request.symbol?_eq_some_iff {request : Request} {symbol : String} :
    request.symbol? = some symbol ↔ ∃ name, request = .la name symbol := by
  cases request <;> simp [symbol?]

theorem Names.la_of_resolve {names : Names} {index : Nat} {request : Request} {dst : Reg} {symbol : String}
    (resolves : names.resolve index request = .ok (.step (.emit (.la dst symbol)))) :
    ∃ name, request = .la name symbol := by
  cases request with
  | la name text =>
    simp only [Names.resolve, exceptBind_eq_ok_iff, Except.ok.injEq, Task.step.injEq, Step.emit.injEq,
      Operation.la.injEq] at resolves
    obtain ⟨_, _, _, rfl⟩ := resolves
    exact ⟨name, rfl⟩
  | _ =>
    -- No other request resolves to the address of a symbol.
    simp only [Names.resolve, Names.freeTask, exceptBind_eq_ok_iff, Except.ok.injEq, Task.step.injEq] at resolves
    grind

namespace Direct

variable {direct next : Direct} {operations : List Operation} {dst : Reg} {symbol : String}

/-- Only a step that emits it contributes the address of a symbol. -/
theorem emit_of_la {step : Step} (steps : direct.step step = some (operations, next))
    (loads : .la dst symbol ∈ operations) : step = .emit (.la dst symbol) := by
  cases step with
  | emit operation =>
    cases steps
    rw [List.mem_singleton.mp loads]
  | push | beginIf | beginWhile =>
    cases steps
    simp at loads
  | merge | close | beginElse | endIf | loopTest | endWhile =>
    simp only [Direct.step] at steps
    split at steps <;> cases steps <;> simp at loads
  | _ => cases steps

theorem apply_la {index : Nat} {request : Request} (applies : direct.apply index request = some (operations, next))
    (loads : .la dst symbol ∈ operations) : ∃ name, request = .la name symbol := by
  unfold apply at applies
  split at applies
  next task resolves =>
    cases task with
    | step step => exact Names.la_of_resolve (emit_of_la applies loads ▸ resolves)
    | bindSlot name | freeSlot name reg | bindLabel name =>
      simp only [perform] at applies
      grind
  next => cases applies

/-- The symbols whose addresses are loaded are those that the request names. -/
theorem symbols_of_apply {index : Nat} {request : Request}
    (applies : direct.apply index request = some (operations, next)) :
    operations.filterMap Operation.symbol? = request.symbol?.toList := by
  cases request with
  | la name symbol =>
    unfold apply at applies
    split at applies
    next task resolves =>
      simp only [Names.resolve, exceptBind_eq_ok_iff, Except.ok.injEq] at resolves
      obtain ⟨_, _, rfl⟩ := resolves
      cases applies
      rfl
    next => cases applies
  | _ =>
    apply List.filterMap_eq_nil_iff.mpr
    intro operation member
    cases operation with
    | la dst symbol =>
      obtain ⟨name, other⟩ := apply_la applies member
      cases other
    | _ => rfl

theorem symbols_of_applyAll {index : Nat} {requests : List Request}
    (applies : direct.applyAll index requests = some (operations, next)) :
    operations.filterMap Operation.symbol? = requests.filterMap Request.symbol? := by
  induction requests generalizing direct index operations with
  | nil =>
    cases applies
    rfl
  | cons request rest ih =>
    simp only [applyAll, Option.bind_eq_bind, Option.bind_eq_some_iff] at applies
    obtain ⟨⟨own, middle⟩, first, ⟨others, last⟩, more, joined⟩ := applies
    cases joined
    rw [List.filterMap_append, symbols_of_apply first, ih more, List.filterMap_cons]
    cases request.symbol? <;> rfl

end Direct

/-- No text that the script brings into the program has a line feed. -/
structure Script.IsLinewise (script : Script) : Prop where
  symbols : ∀ dst symbol, .la dst symbol ∈ script.requests → IsOneLine symbol
  strings : ∀ text ∈ script.strings, IsOneLine text

theorem Script.isLinewise_programFragments {script : Script} {operations : List Operation}
    (linewise : script.IsLinewise) (emits : script.operations? = some operations) :
    ∀ fragment ∈ programFragments operations script.strings, fragment.IsLinewise := by
  obtain ⟨⟨_, last⟩, applies, rfl⟩ := Option.map_eq_some_iff.mp emits
  intro fragment member
  obtain rfl | ⟨operation, emitted, rfl⟩ | rfl | rfl := mem_programFragments.mp member
  · exact Fragment.isLinewise_prolog
  · apply Operation.isLinewise
    cases operation with
    | la dst symbol =>
      -- The one operation with free text has it from a request of the script.
      intro text isSymbol
      have loaded := List.mem_filterMap.mpr ⟨_, emitted, isSymbol⟩
      rw [Direct.symbols_of_applyAll applies] at loaded
      obtain ⟨request, asked, names⟩ := List.mem_filterMap.mp loaded
      obtain ⟨name, rfl⟩ := Request.symbol?_eq_some_iff.mp names
      exact linewise.symbols name _ asked
    | _ => simp [Operation.symbol?]
  · exact Fragment.isLinewise_epilog
  · exact isLinewise_literalSection linewise.strings

/-! ## Lines -/

/-- The line of an instruction without the line feed that ends it. -/
def Inst.row (inst : Inst) : List Char :=
  if inst.isFlush then inst.text.toList else '\t' :: inst.text.toList

theorem Inst.toList_line (inst : Inst) : inst.line.toList = inst.row ++ ['\n'] := by
  unfold line row
  split <;> simp

/-- Instructions of one line each stand one by one between the line feeds. -/
theorem Inst.splitOn_lines {insts : List Inst} (oneLine : ∀ inst ∈ insts, IsOneLine inst.text) :
    (lines insts).toList.splitOn '\n' = insts.map row ++ [[]] := by
  induction insts with
  | nil => rfl
  | cons inst rest ih =>
    have unbroken : '\n' ∉ inst.row := by
      have here : '\n' ∉ inst.text.toList := oneLine inst List.mem_cons_self
      unfold row
      split <;> simp [here]
    have others := ih fun other member => oneLine other (List.mem_cons_of_mem _ member)
    rw [lines_cons, String.toList_append, toList_line, List.append_assoc, List.singleton_append,
      List.splitOn_append_cons_self_of_not_mem unbroken, others, List.map_cons, List.cons_append]

end MipsBackend
