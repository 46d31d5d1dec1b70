import MipsBackend.Cli.Invocation
import MipsBackend.Proofs.Outcome

/-! # Options on a command line

What the words of a command line say about the options of code generation, read without a draft.

* `Options.given`: the options that the words ask for.
* `Draft.Takes`: what one word adds to a draft.
* `Draft.number_foldlM`, `Draft.annotate_foldlM`: what a draft collects is what the words ahead of it give.
* `Invocation.options_eq_given`: an invocation has the options that its words ask for.
-/

namespace MipsBackend.Cli

/-- How an option with a value is called. -/
def Setting.word : Setting → String
  | output => "output"
  | maxDepth => "max-depth"
  | bufferCapacity => "buffer-capacity"

/-- The value of an option: the word after its name, or what follows its name and an equals sign. -/
def Setting.value? (setting : Setting) : List String → Option String
  | [] => none
  | word :: rest =>
    if word = "--" then none
    else if word = "--" ++ setting.word then rest.head?
    else if ("--" ++ setting.word ++ "=").toList <+: word.toList then
      some (String.ofList (word.toList.drop ("--" ++ setting.word ++ "=").length))
    else setting.value? rest

/-- The value of an option that takes a number. -/
def Setting.number? (setting : Setting) (words : List String) : Option Nat :=
  (setting.value? words).bind Cli.number?

end Cli

open Cli in
/-- The options that the words of a command line ask for. -/
def Options.given (words : List String) : Options where
  maxDepth := (Setting.maxDepth.number? words).getD 100
  bufferCapacity := (Setting.bufferCapacity.number? words).getD 8192
  annotate := (words.takeWhile fun word => word != "--").contains "--annotate"

namespace Cli

/-! ## Long options -/

theorem bne_equals_of_notMem {name : List Char} (plain : '=' ∉ name) : ∀ c ∈ name, (c != '=') = true := by
  intro c mem
  rw [bne_iff_ne]
  intro equals
  exact plain (equals ▸ mem)

theorem splitAtEquals_of_notMem {name : List Char} (plain : '=' ∉ name) :
    Draft.splitAtEquals name = (String.ofList name, none) := by
  have dropped : (name ++ []).dropWhile (fun c => c != '=') = [] :=
    List.dropWhile_append_of_pos (bne_equals_of_notMem plain)
  rw [List.append_nil] at dropped
  simp [Draft.splitAtEquals, dropped]

theorem splitAtEquals_append {name : List Char} (plain : '=' ∉ name) (value : List Char) :
    Draft.splitAtEquals (name ++ '=' :: value) = (String.ofList name, some (String.ofList value)) := by
  have all := bne_equals_of_notMem plain
  simp [Draft.splitAtEquals, List.dropWhile_append_of_pos all, List.takeWhile_append_of_pos all]

namespace Setting

variable (setting : Setting) {word : String} {rest : List String}

theorem notMem_word : '=' ∉ setting.word.toList := by
  cases setting <;> decide

theorem word_ne_nil : setting.word.toList ≠ [] := by
  cases setting <;> decide

theorem word_inj {other : Setting} : setting.word = other.word ↔ setting = other := by
  cases setting <;> cases other <;> decide

theorem value?_cons_of_plain (plain : ∀ option, word.toList ≠ '-' :: '-' :: option) :
    setting.value? (word :: rest) = setting.value? rest := by
  have notDashes : word ≠ "--" := by
    intro same
    exact plain [] (by simp [same])
  have notName : word ≠ "--" ++ setting.word := by
    intro same
    exact plain setting.word.toList (by simp [same])
  have notAssigned : ¬ ("--" ++ setting.word ++ "=").toList <+: word.toList := by
    intro ⟨value, same⟩
    exact plain (setting.word.toList ++ '=' :: value) (by simp [← same])
  simp only [value?, if_neg notDashes, if_neg notName, if_neg notAssigned]

theorem value?_cons_of_name {name : List Char} (chars : word.toList = '-' :: '-' :: name) (plain : '=' ∉ name)
    (named : name ≠ []) :
    setting.value? (word :: rest) = if String.ofList name = setting.word then rest.head? else setting.value? rest := by
  have notDashes : word ≠ "--" := by
    intro same
    simp [same, named.symm] at chars
  have isName : word = "--" ++ setting.word ↔ String.ofList name = setting.word := by
    rw [← String.toList_inj, ← String.toList_inj, chars]
    simp
  have notAssigned : ¬ ("--" ++ setting.word ++ "=").toList <+: word.toList := by
    intro ⟨value, same⟩
    have rest : setting.word.toList ++ '=' :: value = name := by simpa [chars] using same
    exact plain (by simp [← rest])
  simp only [value?, if_neg notDashes, isName, if_neg notAssigned]

theorem value?_cons_of_assignment {name value : List Char} (chars : word.toList = '-' :: '-' :: (name ++ '=' :: value))
    (plain : '=' ∉ name) :
    setting.value? (word :: rest) =
      if String.ofList name = setting.word then some (String.ofList value) else setting.value? rest := by
  have notDashes : word ≠ "--" := by
    intro same
    simp [same] at chars
  have notName : word ≠ "--" ++ setting.word := by
    intro same
    have rest : setting.word.toList = name ++ '=' :: value := by simpa [same] using chars
    exact setting.notMem_word (by simp [rest])
  -- The name ends at the first equals sign, on both sides.
  have isAssigned : ("--" ++ setting.word ++ "=").toList <+: word.toList ↔ String.ofList name = setting.word := by
    constructor
    · intro ⟨other, same⟩
      have rest : setting.word.toList ++ '=' :: other = name ++ '=' :: value := by simpa [chars] using same
      have names := congrArg (List.takeWhile fun c => c != '=') rest
      rw [List.takeWhile_append_of_pos (bne_equals_of_notMem setting.notMem_word),
        List.takeWhile_append_of_pos (bne_equals_of_notMem plain)] at names
      have : setting.word.toList = name := by simpa using names
      simp [← this]
    · intro same
      exact ⟨value, by simp [chars, ← same]⟩
  simp only [value?, if_neg notDashes, if_neg notName, isAssigned]
  split
  case isTrue same =>
    have length : ('-' :: '-' :: (name ++ ['='])).length = ("--" ++ setting.word ++ "=").length := by
      rw [← String.length_toList]
      simp [← same]
    have split : word.toList = ('-' :: '-' :: (name ++ ['='])) ++ value := by simp [chars]
    rw [split, List.drop_left' length]
  case isFalse => rfl

end Setting

/-! ## Steps of a draft -/

/-- What a draft has collected for code generation. -/
structure Wishes where
  maxDepth : Option Nat
  bufferCapacity : Option Nat
  annotate : Bool
  /-- Whether no further option can be given. -/
  complete : Bool

/-- The number collected for an option. -/
def Wishes.number (wishes : Wishes) : Setting → Option Nat
  | .output => none
  | .maxDepth => wishes.maxDepth
  | .bufferCapacity => wishes.bufferCapacity

namespace Draft

/-- What was asked for so far. Comments cannot be before the command is chosen. -/
def wishes (draft : Draft) : Wishes where
  maxDepth := draft.maxDepth
  bufferCapacity := draft.bufferCapacity
  annotate := draft.verb.isSome && draft.switches.contains .annotate
  complete := draft.operandsOnly

variable {draft next final : Draft} {setting : Setting} {word : String} {rest : List String}

theorem wishes_of_turnOn {switch : Switch} (turned : draft.turnOn switch = .ok next) :
    next.wishes = { draft.wishes with annotate := draft.wishes.annotate || switch == .annotate } ∧
      next.pending = draft.pending := by
  unfold turnOn at turned
  cases switch <;> grind [wishes]

theorem wishes_of_takeWord (taken : draft.takeWord word = .ok next) :
    next.wishes = draft.wishes ∧ next.pending = draft.pending := by
  unfold takeWord at taken
  grind [wishes]

theorem wishes_of_store {value : String} (stored : draft.store setting value = .ok next) :
    next.pending = none ∧ next.wishes.annotate = draft.wishes.annotate ∧
      next.wishes.complete = draft.wishes.complete := by
  unfold store at stored
  cases setting <;> grind [wishes]

theorem number_of_store {other : Setting} {value : String} (numeric : other ≠ .output)
    (stored : draft.store setting value = .ok next) :
    next.wishes.number other =
      if other = setting then (draft.wishes.number other).or (Cli.number? value) else draft.wishes.number other := by
  unfold store at stored
  cases other with
  | output => contradiction
  | maxDepth | bufferCapacity => cases setting <;> grind [wishes, Wishes.number]

theorem exists_number_of_store {value : String} (numeric : setting ≠ .output)
    (stored : draft.store setting value = .ok next) : ∃ number, Cli.number? value = some number := by
  unfold store at stored
  cases setting <;> grind

theorem wishes_of_takeShort {run : List Char} (free : draft.pending = none) (taken : draft.takeShort run = .ok next) :
    next.wishes = draft.wishes ∧ (next.pending = none ∨ next.pending = some .output) := by
  have verboseOrVersion {draft turned : Draft} {switch : Switch} (other : switch ≠ .annotate)
      (free : draft.pending = none) (turnedOn : draft.turnOn switch = .ok turned) :
      turned.wishes = draft.wishes ∧ turned.pending = none := by
    have ⟨same, pending⟩ := wishes_of_turnOn turnedOn
    simp [same, pending, free, beq_false_of_ne other]
  fun_induction takeShort draft run with
  | case1 draft => cases taken; exact ⟨rfl, .inl free⟩
  | case2 draft rest ih | case3 draft rest ih =>
    obtain ⟨turned, turnedOn, taken⟩ := exceptBind_eq_ok_iff.mp taken
    have ⟨same, free⟩ := verboseOrVersion (by decide) free turnedOn
    rw [← same]
    exact ih turned free taken
  | case4 draft =>
    unfold await at taken
    grind [wishes]
  | case6 draft value known | case8 draft value _ _ known =>
    unfold store at taken
    grind [wishes]
  | case5 | case7 | case9 => cases taken

/-- What a word adds to a draft. -/
inductive Takes (draft : Draft) (word : String) (next : Draft) : Prop
  /-- The word is the value that the draft waits for. -/
  | value {setting : Setting} (waited : draft.pending = some setting)
      (plain : ∀ name, word.toList ≠ '-' :: '-' :: name) (stored : draft.store setting word = .ok next)
  /-- Only operands are left. -/
  | operand (free : draft.pending = none) (complete : draft.wishes.complete = true) (same : next.wishes = draft.wishes)
      (waits : next.pending = none)
  | dashes (free : draft.pending = none) (isOpen : draft.wishes.complete = false) (isDashes : word = "--")
      (marked : next.wishes = { draft.wishes with complete := true }) (waits : next.pending = none)
  | switch {switch : Switch} {name : List Char} (free : draft.pending = none) (isOpen : draft.wishes.complete = false)
      (chars : word.toList = '-' :: '-' :: name) (noValue : '=' ∉ name) (named : name ≠ [])
      (known : longOption? (String.ofList name) = some (.inl switch)) (turned : draft.turnOn switch = .ok next)
  /-- The word names an option whose value is the next word. -/
  | name {setting : Setting} (free : draft.pending = none) (isOpen : draft.wishes.complete = false)
      (chars : word.toList = '-' :: '-' :: setting.word.toList) (same : next.wishes = draft.wishes)
      (waits : next.pending = some setting)
  | assignment {setting : Setting} {value : List Char} (free : draft.pending = none)
      (isOpen : draft.wishes.complete = false)
      (chars : word.toList = '-' :: '-' :: (setting.word.toList ++ '=' :: value))
      (stored : draft.store setting (String.ofList value) = .ok next)
  /-- The word chooses the command, is its operand, or is a run of short options. -/
  | other (free : draft.pending = none) (isOpen : draft.wishes.complete = false)
      (plain : ∀ name, word.toList ≠ '-' :: '-' :: name) (same : next.wishes = draft.wishes)
      (waits : next.pending = none ∨ next.pending = some .output)

theorem longOption?_eq_setting {name : String} (known : longOption? name = some (.inr setting)) : name = setting.word := by
  unfold longOption? at known
  grind [Setting.word]

theorem takes_of_takeLong {name : List Char} (free : draft.pending = none) (isOpen : draft.wishes.complete = false)
    (chars : word.toList = '-' :: '-' :: name) (named : name ≠ []) (taken : draft.takeLong name = .ok next) :
    draft.Takes word next := by
  by_cases assigned : '=' ∈ name
  · obtain ⟨label, value, rfl, plain⟩ := List.eq_append_cons_of_mem assigned
    simp only [takeLong, splitAtEquals_append plain value] at taken
    cases known : longOption? (String.ofList label) with
    | none => simp [known] at taken
    | some option =>
      cases option with
      | inl switch => simp [known] at taken
      | inr setting =>
        have stored : draft.store setting (String.ofList value) = .ok next := by
          simp only [known] at taken
          split at taken
          · cases taken
          · exact taken
        have word : label = setting.word.toList := by rw [← longOption?_eq_setting known, String.toList_ofList]
        exact .assignment free isOpen (by rw [chars, word]) stored
  · simp only [takeLong, splitAtEquals_of_notMem assigned] at taken
    cases known : longOption? (String.ofList name) with
    | none => simp [known] at taken
    | some option =>
      cases option with
      | inl switch => exact .switch free isOpen chars assigned named known (by simpa only [known] using taken)
      | inr setting =>
        have word : name = setting.word.toList := by rw [← longOption?_eq_setting known, String.toList_ofList]
        simp only [known, await] at taken
        split at taken
        · cases taken
        · cases taken
          exact .name free isOpen (by rw [chars, word]) rfl rfl

theorem takes_of_take (taken : draft.take word = .ok next) : draft.Takes word next := by
  unfold take at taken
  split at taken
  case h_1 => cases taken
  case h_2 waits plain => exact .value waits (fun name => plain '-' name) taken
  case h_3 free complete =>
    have ⟨same, pending⟩ := wishes_of_takeWord taken
    exact .operand free complete same (pending.trans free)
  case h_4 free isOpen chars =>
    have isDashes : word = "--" := String.toList_inj.mp (by simpa using chars)
    split at taken
    · cases taken
    · cases taken
      exact .dashes free isOpen isDashes rfl free
  case h_5 named free isOpen chars => exact takes_of_takeLong free isOpen chars named taken
  case h_6 isShort free isOpen chars =>
    have ⟨same, waits⟩ := wishes_of_takeShort free taken
    have plain : ∀ name, word.toList ≠ '-' :: '-' :: name := by
      intro name long
      rw [chars] at long
      cases long
      exact isShort rfl
    exact .other free isOpen plain same waits
  case h_7 free isOpen _ plain _ =>
    have ⟨same, pending⟩ := wishes_of_takeWord taken
    exact .other free isOpen plain same (.inl (pending.trans free))

/-! ## The words ahead of a draft -/

/-- The number that words still give for an option. -/
def ahead (draft : Draft) (setting : Setting) (words : List String) : Option Nat :=
  if draft.pending = some setting then words.head?.bind Cli.number?
  else if draft.wishes.complete then none
  else setting.number? words

/-- Whether words still ask for comments. -/
def annotateAhead (draft : Draft) (words : List String) : Bool :=
  !draft.wishes.complete && (words.takeWhile fun word => word != "--").contains "--annotate"

theorem longOption?_ne_word {name : String} {switch : Switch} (known : longOption? name = some (.inl switch)) :
    name ≠ setting.word := by
  unfold longOption? at known
  cases setting <;> grind [Setting.word]

/-- A word moves from what is ahead of a draft to what it has collected. -/
theorem number_step (numeric : setting ≠ .output) (takes : draft.Takes word next) :
    (next.wishes.number setting).or (next.ahead setting rest) =
      (draft.wishes.number setting).or (draft.ahead setting (word :: rest)) := by
  cases takes with
  | @value waiting waited plain stored =>
    have ⟨free, _, complete⟩ := wishes_of_store stored
    by_cases same : setting = waiting
    · subst same
      -- A value that is no number would have been refused, so the first value is the number that counts.
      obtain ⟨number, read⟩ := exists_number_of_store numeric stored
      simp [number_of_store numeric stored, ahead, waited, read]
    · have other : waiting ≠ setting := Ne.symm same
      simp [number_of_store numeric stored, same, ahead, waited, free, complete, other, Setting.number?,
        setting.value?_cons_of_plain plain]
  | operand free complete same waits => simp [ahead, free, waits, same, complete]
  | dashes free isOpen isDashes marked waits =>
    have ended : setting.value? (word :: rest) = none := by simp [Setting.value?, isDashes]
    simp [ahead, free, waits, marked, isOpen, Setting.number?, ended, Wishes.number]
  | switch free isOpen chars noValue named known turned =>
    have ⟨same, pending⟩ := wishes_of_turnOn turned
    have skipped : setting.value? (word :: rest) = setting.value? rest := by
      rw [setting.value?_cons_of_name chars noValue named, if_neg (longOption?_ne_word known)]
    have numbers : next.wishes.number setting = draft.wishes.number setting := by
      rw [same]
      cases setting <;> rfl
    have complete : next.wishes.complete = draft.wishes.complete := by rw [same]
    simp [ahead, free, pending, numbers, complete, isOpen, Setting.number?, skipped]
  | @name named free isOpen chars same waits =>
    have found : setting.value? (word :: rest) = if named = setting then rest.head? else setting.value? rest := by
      rw [setting.value?_cons_of_name chars named.notMem_word named.word_ne_nil]
      simp [Setting.word_inj]
    by_cases isNamed : named = setting <;>
      simp [ahead, free, waits, same, isOpen, Setting.number?, found, isNamed]
  | @assignment named value free isOpen chars stored =>
    have ⟨waits, _, complete⟩ := wishes_of_store stored
    have found : setting.value? (word :: rest) =
        if named = setting then some (String.ofList value) else setting.value? rest := by
      rw [setting.value?_cons_of_assignment chars named.notMem_word]
      simp [Setting.word_inj]
    by_cases isNamed : named = setting
    · subst isNamed
      obtain ⟨number, read⟩ := exists_number_of_store numeric stored
      simp [number_of_store numeric stored, ahead, free, isOpen, Setting.number?, found, read]
    · have other : setting ≠ named := Ne.symm isNamed
      simp [number_of_store numeric stored, ahead, free, waits, complete, isOpen, Setting.number?, found, isNamed, other]
  | other free isOpen plain same waits =>
    have notPending : next.pending ≠ some setting := by
      rcases waits with waits | waits <;> simp [waits, numeric.symm]
    simp [ahead, free, notPending, same, isOpen, Setting.number?, setting.value?_cons_of_plain plain]

theorem annotateAhead_of_complete {words : List String} (complete : draft.wishes.complete = true) :
    draft.annotateAhead words = false := by
  simp [annotateAhead, complete]

theorem annotateAhead_cons_of_ne (notDashes : word ≠ "--") (notAnnotate : word ≠ "--annotate")
    (complete : next.wishes.complete = draft.wishes.complete) :
    draft.annotateAhead (word :: rest) = next.annotateAhead rest := by
  simp [annotateAhead, notDashes, notAnnotate.symm, complete]

theorem annotateAhead_cons_of_plain (plain : ∀ name, word.toList ≠ '-' :: '-' :: name)
    (complete : next.wishes.complete = draft.wishes.complete) :
    draft.annotateAhead (word :: rest) = next.annotateAhead rest := by
  apply annotateAhead_cons_of_ne _ _ complete
  · intro same
    exact plain [] (by simp [same])
  · intro same
    exact plain "annotate".toList (by simp [same])

theorem annotateAhead_cons_of_long {name : List Char} (chars : word.toList = '-' :: '-' :: name) (named : name ≠ [])
    (other : String.ofList name ≠ "annotate") (complete : next.wishes.complete = draft.wishes.complete) :
    draft.annotateAhead (word :: rest) = next.annotateAhead rest := by
  apply annotateAhead_cons_of_ne _ _ complete
  · intro same
    simp [same, named.symm] at chars
  · intro same
    have : "annotate".toList = name := by simpa [same] using chars
    exact other (by rw [← this, String.ofList_toList])

theorem longOption?_eq_annotate_iff {name : String} {switch : Switch} (known : longOption? name = some (.inl switch)) :
    name = "annotate" ↔ switch = .annotate := by
  unfold longOption? at known
  grind

/-- A word moves from what is ahead of a draft to what it has collected. -/
theorem annotate_step (takes : draft.Takes word next) :
    (next.wishes.annotate || next.annotateAhead rest) = (draft.wishes.annotate || draft.annotateAhead (word :: rest)) := by
  cases takes with
  | value waited plain stored =>
    have ⟨_, same, complete⟩ := wishes_of_store stored
    rw [annotateAhead_cons_of_plain plain complete, same]
  | operand free complete same waits =>
    rw [annotateAhead_of_complete complete, annotateAhead_of_complete (same ▸ complete), same]
  | dashes free isOpen isDashes marked waits =>
    rw [annotateAhead_of_complete (by rw [marked]), marked]
    simp [annotateAhead, isDashes]
  | @switch switch name free isOpen chars noValue named known turned =>
    have ⟨same, _⟩ := wishes_of_turnOn turned
    by_cases isAnnotate : switch = .annotate
    · have word : word = "--annotate" := by
        have isNamed := (longOption?_eq_annotate_iff known).mpr isAnnotate
        rw [← String.toList_inj, chars, ← String.toList_ofList (l := name), isNamed]
        rfl
      simp [same, isAnnotate, annotateAhead, word, isOpen]
    · have other : String.ofList name ≠ "annotate" := fun named => isAnnotate ((longOption?_eq_annotate_iff known).mp named)
      rw [annotateAhead_cons_of_long chars named other (by rw [same]), same]
      simp [beq_false_of_ne isAnnotate]
  | @name setting free isOpen chars same waits =>
    rw [annotateAhead_cons_of_long chars setting.word_ne_nil (by cases setting <;> decide) (by rw [same]), same]
  | @assignment setting value free isOpen chars stored =>
    have ⟨_, same, complete⟩ := wishes_of_store stored
    have other : String.ofList (setting.word.toList ++ '=' :: value) ≠ "annotate" := by
      intro isAnnotate
      have : '=' ∈ "annotate".toList := by simp [← isAnnotate]
      revert this
      decide
    rw [annotateAhead_cons_of_long chars (by simp) other complete, same]
  | other free isOpen plain same waits => rw [annotateAhead_cons_of_plain plain (by rw [same]), same]

/-- What a draft has collected in the end is what it had and what was ahead of it. -/
theorem number_foldlM (numeric : setting ≠ .output) {words : List String} (taken : words.foldlM take draft = .ok final)
    (free : final.pending = none) :
    final.wishes.number setting = (draft.wishes.number setting).or (draft.ahead setting words) := by
  induction words generalizing draft with
  | nil =>
    cases taken
    simp [ahead, free, Setting.number?, Setting.value?]
  | cons word rest ih =>
    obtain ⟨next, first, taken⟩ := exceptBind_eq_ok_iff.mp taken
    rw [ih taken, number_step numeric (takes_of_take first)]

theorem annotate_foldlM {words : List String} (taken : words.foldlM take draft = .ok final) :
    final.wishes.annotate = (draft.wishes.annotate || draft.annotateAhead words) := by
  induction words generalizing draft with
  | nil =>
    cases taken
    simp [annotateAhead]
  | cons word rest ih =>
    obtain ⟨next, first, taken⟩ := exceptBind_eq_ok_iff.mp taken
    rw [ih taken, annotate_step (takes_of_take first)]

theorem options_of_finish {invocation : Invocation} (finished : draft.finish = .ok invocation) :
    draft.pending = none ∧ invocation.options =
      ⟨draft.maxDepth.getD 100, draft.bufferCapacity.getD 8192, draft.wishes.annotate⟩ := by
  unfold finish at finished
  split at finished
  case isTrue => cases finished
  case isFalse notPending =>
    obtain ⟨command, chosen, finished⟩ := exceptBind_eq_ok_iff.mp finished
    -- Without a command there is no invocation, so a wish for comments was made where it counts.
    have verb : draft.verb.isSome = true := by
      unfold Draft.command at chosen
      grind
    cases finished
    simpa [wishes, verb] using notPending

end Draft

/-- An invocation has the options that its words ask for. -/
theorem Invocation.options_eq_given {words : List String} {invocation : Invocation}
    (parsed : Invocation.parse words = .ok invocation) : invocation.options = Options.given words := by
  obtain ⟨draft, taken, finished⟩ := exceptBind_eq_ok_iff.mp parsed
  have ⟨free, options⟩ := Draft.options_of_finish finished
  have depth : draft.wishes.number .maxDepth = _ := Draft.number_foldlM (by decide) taken free
  have capacity : draft.wishes.number .bufferCapacity = _ := Draft.number_foldlM (by decide) taken free
  change draft.maxDepth = _ at depth
  change draft.bufferCapacity = _ at capacity
  rw [options, depth, capacity, Draft.annotate_foldlM taken]
  rfl

end Cli

end MipsBackend
