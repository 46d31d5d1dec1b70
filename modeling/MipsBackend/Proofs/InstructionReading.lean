import MipsBackend.Proofs.LineBreaks

/-! # Reading instructions

Assembly text determines the instructions that it was written for. Directives apart, which may be any text, every
line can be read back: its first word tells the form, and the character that ends an operand does not occur in it.

* `Inst.ofRow?`, `Inst.ofLines`: the instruction that a line was written for, and those of a whole text.
* `Inst.ofRow?_row`, `Inst.ofLines_lines`: what is written is read back.
* `lines_determine_instructions`: so no two programs have the same text.
-/

namespace MipsBackend

/-! ## Cutting a text -/

/-- A text cut where a character stands first, which belongs to neither part. -/
def cutAt (mark : Char) : List Char → Option (List Char × List Char)
  | [] => none
  | char :: rest =>
    if char = mark then some ([], rest) else (cutAt mark rest).map fun parts => (char :: parts.1, parts.2)

theorem cutAt_append {mark : Char} {front : List Char} (absent : mark ∉ front) (back : List Char) :
    cutAt mark (front ++ mark :: back) = some (front, back) := by
  induction front with
  | nil => simp [cutAt]
  | cons char rest ih =>
    obtain ⟨differs, absent⟩ := not_or.mp (mt List.mem_cons.mpr absent)
    simp [cutAt, Ne.symm differs, ih absent]

/-! ## Operands -/

namespace Reading

def register? (text : List Char) : Option Reg := Reg.ofName? (String.ofList text)

def immediate (text : List Char) : Int64 :=
  if '-' ∈ text then .ofInt (-(Nat.ofDigitChars 10 text.tail 0 : Int)) else .ofInt (Nat.ofDigitChars 10 text 0 : Int)

/-- The label whose text begins with the two characters of every label. -/
def target (text : List Char) : Label := ⟨Nat.ofDigitChars 10 (text.drop 2) 0⟩

/-- A register, and what follows the comma and the blank behind it. -/
def operand? (text : List Char) : Option (Reg × List Char) := do
  let (name, rest) ← cutAt ',' text
  let reg ← register? name
  pure (reg, rest.tail)

/-- An offset, and the register that stands in brackets behind it. -/
def address? (text : List Char) : Option (Int64 × Reg) := do
  let (offset, rest) ← cutAt '(' text
  let (name, _) ← cutAt ')' rest
  let base ← register? name
  pure (immediate offset, base)

@[simp] theorem register?_text (reg : Reg) : register? reg.text.toList = some reg := by
  cases reg <;> decide

theorem unmarked_text (reg : Reg) : ',' ∉ reg.text.toList ∧ ')' ∉ reg.text.toList := by
  cases reg <;> decide

@[simp] theorem immediate_immediateText (value : Int64) : immediate (immediateText value).toList = value := by
  unfold immediateText
  cases sign : value.toInt with
  | ofNat magnitude =>
    have unsigned : '-' ∉ (Int.repr (.ofNat magnitude)).toList := not_mem_repr rfl magnitude
    rw [immediate, if_neg unsigned, Int.repr, Nat.toList_repr, Nat.ofDigitChars_toDigits (by decide) (by decide)]
    exact (congrArg Int64.ofInt sign).symm.trans value.ofInt_toInt
  | negSucc magnitude =>
    have signed : (Int.repr (.negSucc magnitude)).toList = '-' :: Nat.toDigits 10 (magnitude + 1) := by
      rw [Int.repr, String.toList_append, Nat.toList_repr]
      rfl
    rw [signed, immediate, if_pos List.mem_cons_self, List.tail_cons,
      Nat.ofDigitChars_toDigits (by decide) (by decide)]
    exact (congrArg Int64.ofInt sign).symm.trans value.ofInt_toInt

@[simp] theorem target_text (label : Label) : target label.text.toList = label := by
  simp [target, Label.text]

@[simp] theorem operand?_text (reg : Reg) (rest : List Char) :
    operand? (reg.text.toList ++ ',' :: ' ' :: rest) = some (reg, rest) := by
  simp [operand?, cutAt_append (unmarked_text reg).1]

@[simp] theorem address?_text (offset : Int64) (base : Reg) :
    address? ((immediateText offset).toList ++ '(' :: (base.text.toList ++ [')'])) = some (offset, base) := by
  have unbracketed : '(' ∉ (immediateText offset).toList := not_mem_immediateText rfl (by decide) offset
  simp [address?, cutAt_append unbracketed, cutAt_append (unmarked_text base).2]

/-! ## Forms -/

def branch? (text : List Char) : Option Inst := do
  let (lhs, rest) ← operand? text
  let (rhs, rest) ← operand? rest
  pure (.beq lhs rhs (target rest))

/-- Both forms that go to memory, which differ in their name only. -/
def memory? (form : Reg → Reg → Int64 → Inst) (text : List Char) : Option Inst := do
  let (reg, rest) ← operand? text
  let (offset, base) ← address? rest
  pure (form reg base offset)

/-- What the operands stand for, by the first word of the line. Operators are left out. -/
def forms : List (String × (List Char → Option Inst)) :=
  [("lw", memory? .lw), ("sw", memory? .sw),
   ("li", fun text => (operand? text).map fun (dst, rest) => .li dst (immediate rest)),
   ("la", fun text => (operand? text).map fun (dst, rest) => .la dst (String.ofList rest)),
   ("move", fun text => (operand? text).bind fun (dst, rest) => (register? rest).map (.move dst)),
   ("beq", branch?),
   ("j", fun text => some (.j (target text))),
   ("#", fun text => some (.comment (String.ofList text)))]

/-- The operator whose immediate form has the given mnemonic. -/
def ofImmediateMnemonic? (name : String) : Option Operator :=
  Operator.all.find? fun operator => operator.immediateMnemonic == name

/-- An operator with its operands. The comparisons are called the same in both forms, so only the sigil of the last
operand tells which it is. -/
def operation? (name : String) (text : List Char) : Option Inst := do
  let (dst, rest) ← operand? text
  let (lhs, last) ← operand? rest
  if last.head? = some '$' then
    let operator ← Operator.ofMnemonic? name
    let rhs ← register? last
    pure (.op operator dst lhs rhs)
  else
    let operator ← ofImmediateMnemonic? name
    pure (.opImm operator dst lhs (immediate last))

/-- An instruction without its tab. -/
def ofText? (text : List Char) : Option Inst :=
  match cutAt ' ' text with
  | none => [Inst.syscall, .nop].find? fun inst => inst.text.toList == text
  | some (word, operands) =>
    match forms.lookup (String.ofList word) with
    | some form => form operands
    | none => operation? (String.ofList word) operands

theorem ofMnemonic?_mnemonic (operator : Operator) : Operator.ofMnemonic? operator.mnemonic = some operator := by
  cases operator <;> rfl

theorem ofImmediateMnemonic?_mnemonic (operator : Operator) :
    ofImmediateMnemonic? operator.immediateMnemonic = some operator := by
  cases operator <;> rfl

/-- No operator is called as one of the other forms. -/
theorem ofText?_operator {word : String} {operator : Operator}
    (isMnemonic : word = operator.mnemonic ∨ word = operator.immediateMnemonic) (operands : List Char) :
    ofText? (word.toList ++ ' ' :: operands) = operation? word operands := by
  have plain : ' ' ∉ word.toList ∧ forms.lookup word = none := by
    obtain rfl | rfl := isMnemonic <;> cases operator <;> exact ⟨by decide, rfl⟩
  simp [ofText?, cutAt_append plain.1, plain.2]

theorem operation?_op (operator : Operator) (dst lhs rhs : Reg) :
    operation? operator.mnemonic
        (dst.text.toList ++ ',' :: ' ' :: (lhs.text.toList ++ ',' :: ' ' :: rhs.text.toList)) =
      some (.op operator dst lhs rhs) := by
  have sigil : rhs.text.toList.head? = some '$' := by simp [Reg.text]
  simp [operation?, sigil, ofMnemonic?_mnemonic]

theorem operation?_opImm (operator : Operator) (dst src : Reg) (value : Int64) :
    operation? operator.immediateMnemonic
        (dst.text.toList ++ ',' :: ' ' :: (src.text.toList ++ ',' :: ' ' :: (immediateText value).toList)) =
      some (.opImm operator dst src value) := by
  have noSigil : (immediateText value).toList.head? ≠ some '$' := by
    intro sigil
    exact not_mem_immediateText rfl (by decide) value (List.mem_of_head? sigil)
  simp [operation?, noSigil, ofImmediateMnemonic?_mnemonic]

/-- An instruction is read back from its text, unless it starts at column zero. -/
theorem ofText?_text {inst : Inst} (indented : inst.isFlush = false) : ofText? inst.text.toList = some inst := by
  cases inst with
  | op operator dst lhs rhs =>
    rw [← operation?_op, ← ofText?_operator (.inl rfl)]
    simp [Inst.text]
  | opImm operator dst src value =>
    rw [← operation?_opImm, ← ofText?_operator (.inr rfl)]
    simp [Inst.text]
  | label | directive => cases indented
  | syscall | nop => decide
  | _ => simp [Inst.text, ofText?, cutAt, forms, List.lookup_cons, memory?, branch?]

end Reading

/-! ## Lines -/

namespace Inst

/-- The instruction whose line, without its end, a text is. Only labels start at column zero. -/
def ofRow? (row : List Char) : Option Inst :=
  if row.head? = some '\t' then Reading.ofText? row.tail
  else (cutAt ':' row).map fun parts => .label (Reading.target parts.1)

def isDirective : Inst → Bool
  | directive _ => true
  | _ => false

/-- An instruction that its line tells: not a directive, and without a line feed in its free text. -/
structure IsLegible (inst : Inst) : Prop where
  notDirective : inst.isDirective = false
  oneLine : ∀ text ∈ inst.freeText?, IsOneLine text

instance (inst : Inst) : Decidable inst.IsLegible :=
  decidable_of_iff (inst.isDirective = false ∧ ∀ text ∈ inst.freeText?, IsOneLine text)
    ⟨fun ⟨notDirective, oneLine⟩ => ⟨notDirective, oneLine⟩, fun legible => ⟨legible.1, legible.2⟩⟩

theorem ofRow?_label (target : Label) : ofRow? (label target).row = some (label target) := by
  have unmarked : ':' ∉ target.text.toList := by
    simpa [Label.text] using not_mem_repr rfl target.id
  have flush : (label target).row = target.text.toList ++ [':'] := by simp [row, isFlush, text]
  have untabbed : (target.text.toList ++ [':']).head? = some '.' := by simp [Label.text]
  simp [ofRow?, flush, untabbed, cutAt_append unmarked]

theorem ofRow?_row {inst : Inst} (notDirective : inst.isDirective = false) : ofRow? inst.row = some inst := by
  cases flush : inst.isFlush with
  | false => simp [ofRow?, row, flush, Reading.ofText?_text flush]
  | true =>
    cases inst with
    | label target => exact ofRow?_label target
    | directive text => cases notDirective
    | _ => cases flush

theorem eq_of_line_eq {left right : Inst} (leftRead : left.isDirective = false) (rightRead : right.isDirective = false)
    (same : left.line = right.line) : left = right := by
  have rows : left.row = right.row := by simpa [toList_line] using congrArg String.toList same
  have read := congrArg ofRow? rows
  rw [ofRow?_row leftRead, ofRow?_row rightRead] at read
  exact Option.some.inj read

/-- The instructions whose lines the lines of a text are. -/
def ofLines (text : String) : List (Option Inst) := (text.toList.splitOn '\n').dropLast.map ofRow?

theorem ofLines_lines {insts : List Inst} (legible : ∀ inst ∈ insts, inst.IsLegible) :
    ofLines (lines insts) = insts.map some := by
  -- No line feed is left but those that end the lines.
  rw [ofLines, splitOn_lines fun inst member => isOneLine_text (legible inst member).oneLine, List.dropLast_concat,
    List.map_map]
  exact List.map_congr_left fun inst member => ofRow?_row (legible inst member).notDirective

end Inst

/-- Legible instructions have their text for themselves. In particular, no register form is written as an immediate
form, whatever the operators. -/
theorem lines_determine_instructions :
    (∀ left right : List Inst, (∀ inst ∈ left, inst.IsLegible) → (∀ inst ∈ right, inst.IsLegible) →
      Inst.lines left = Inst.lines right → left = right) ∧
    ∀ (operator operator' : Operator) (dst lhs rhs dst' src : Reg) (value : Int64),
      (Inst.op operator dst lhs rhs).line ≠ (Inst.opImm operator' dst' src value).line := by
  constructor
  · intro left right leftLegible rightLegible same
    have read := congrArg Inst.ofLines same
    rw [Inst.ofLines_lines leftLegible, Inst.ofLines_lines rightLegible] at read
    exact (List.map_inj_right fun _ _ => Option.some.inj).mp read
  · intro operator operator' dst lhs rhs dst' src value same
    cases Inst.eq_of_line_eq rfl rfl same

/-- Both forms of a comparison have one mnemonic, and a symbol may look like operands. -/
theorem lines_determine_instructions_sle :
    Inst.lines [.op .sle .t0 .t1 .t5, .la .a0 "x, 4($sp)", .label ⟨7⟩] ≠
      Inst.lines [.opImm .sle .t0 .t1 5, .la .a0 "x, 4($sp)", .label ⟨7⟩] := by
  intro same
  have equal := lines_determine_instructions.1 _ _ (by decide) (by decide) same
  cases List.head_eq_of_cons_eq equal

end MipsBackend
