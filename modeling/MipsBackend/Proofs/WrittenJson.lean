import MipsBackend.Json.Writer
import MipsBackend.Proofs.RequestReading

/-! # Reading written JSON

What the writers of JSON texts produce is read back by the readers.

* `Reader.Takes`: a reader takes a text off the front of another and gives a value.
* `Json.readChars_escaped`: a string reads back whatever characters it has.
* `Json.takes_number`: so does a whole number of 64 bits.
* `Json.readElements_written`, `Json.readMembers_written`: lists and objects read back if their parts do.
-/

namespace MipsBackend

variable {α σ : Type} {limit budget : Nat} {text rest : List Char}

/-- What may follow a value inside a list or an object. -/
inductive Follow : List Char → Prop
  | comma (rest : List Char) : Follow (',' :: rest)
  | bracket (rest : List Char) : Follow (']' :: rest)
  | brace (rest : List Char) : Follow ('\x7d' :: rest)

/-- The reader takes the text off the front and gives the value, whatever follows. -/
def Reader.Takes (reader : Reader α) (text : List Char) (value : α) : Prop :=
  ∀ ⦃rest⦄, Follow rest → reader (text ++ rest) = .ok (value, rest)

namespace Json

/-! ## Strings -/

theorem hexValue?_hexDigit : ∀ {value : Nat}, value < 16 → hexValue? (hexDigit value) = some value := by
  decide

theorem utf8Size_hexDigit : ∀ {value : Nat}, value < 16 → (hexDigit value).utf8Size = 1 := by
  decide

theorem readCodePoint_control {care : Care} {c : Char} (control : c.toNat < 0x20) :
    readCodePoint care ('0' :: '0' :: hexDigit (c.toNat / 16) :: hexDigit (c.toNat % 16) :: rest) = .ok (c, rest) := by
  have high : c.toNat / 16 < 16 := by omega
  have low : c.toNat % 16 < 16 := by omega
  have hex : readHex ('0' :: '0' :: hexDigit (c.toNat / 16) :: hexDigit (c.toNat % 16) :: rest) = .ok (c.toNat, rest) := by
    have zero : hexValue? '0' = some 0 := by decide
    have value : c.toNat / 16 * 16 + c.toNat % 16 = c.toNat := by omega
    have size : '0'.utf8Size = 1 := by decide
    simp [readHex, byteSize, size, utf8Size_hexDigit high, utf8Size_hexDigit low, zero, hexValue?_hexDigit high,
      hexValue?_hexDigit low, value]
  have notLow : isLowHalf c.toNat = false := by simp [isLowHalf]; omega
  have notHigh : isHighHalf c.toNat = false := by simp [isHighHalf]; omega
  simp [readCodePoint, hex, bind, Except.bind, notLow, notHigh]

/-- A written character is read back. -/
theorem readChars_escapedChar (care : Care) (c : Char) : readChars care (limit + 1) (escapedChar c ++ text) =
    (readChars care limit text).map fun (cs, rest) => (c :: cs, rest) := by
  unfold escapedChar
  split
  -- All but the last case have a short escape.
  case h_8 notQuote notBackslash _ _ _ _ _ =>
    split
    case isTrue control =>
      cases read : readChars care limit text <;>
        simp [readChars, readEscape, readCodePoint_control control, bind, Except.bind, Except.map, read]
    case isFalse visible =>
      cases read : readChars care limit text <;>
        simp [readChars, visible, bind, Except.bind, Except.map, read]
  all_goals
    cases read : readChars care limit text <;>
      simp [readChars, readEscape, bind, Except.bind, Except.map, read]

theorem readChars_escaped (care : Care) {cs : List Char} (enough : cs.length ≤ limit) :
    readChars care limit (cs.flatMap escapedChar ++ '"' :: rest) = .ok (cs, rest) := by
  induction cs generalizing limit with
  | nil => simp [readChars]
  | cons c cs ih =>
    obtain ⟨more, rfl⟩ : ∃ more, limit = more + 1 := Nat.exists_eq_add_one.mpr (by simp at enough; omega)
    have enough : cs.length ≤ more := by simpa using enough
    rw [List.flatMap_cons, List.append_assoc, readChars_escapedChar, ih enough]
    rfl

theorem readString_written (care : Care) {value : String} (enough : value.length ≤ limit) :
    readString care limit (value.toList.flatMap escapedChar ++ '"' :: rest) = .ok (value, rest) := by
  rw [← String.length_toList] at enough
  simp [readString, readChars_escaped care enough, bind, Except.bind]

theorem length_le_flatMap_escapedChar (cs : List Char) : cs.length ≤ (cs.flatMap escapedChar).length := by
  induction cs with
  | nil => simp
  | cons c cs ih =>
    have written : 0 < (escapedChar c).length := by
      unfold escapedChar
      grind
    simp only [List.flatMap_cons, List.length_append, List.length_cons]
    omega

theorem length_le_writeString (value : String) : value.length ≤ (writeString value).length := by
  have escaped := length_le_flatMap_escapedChar value.toList
  rw [String.length_toList] at escaped
  simp only [writeString, List.cons_append, List.length_cons, List.length_append]
  omega

theorem takes_text {value : String} (enough : (writeString value).length ≤ limit) :
    Reader.Takes (readText limit) (writeString value) value := by
  intro rest _
  have enough := Nat.le_trans (length_le_writeString value) enough
  simp [readText, writeString, dropBlanks, isBlank, readString_written .exact enough]

theorem readKey_written (care : Care) {key : String} (enough : (writeString key).length ≤ limit) :
    readKey care limit (writeString key ++ rest) = .ok (key, rest) := by
  have enough := Nat.le_trans (length_le_writeString key) enough
  simp [readKey, writeString, dropBlanks, isBlank, readString_written care enough]

theorem takes_string {value : String} (enough : (writeString value).length ≤ limit) :
    Reader.Takes (readValue .exact limit budget) (writeString value) (.string value) := by
  intro rest _
  have enough := Nat.le_trans (length_le_writeString value) enough
  cases budget <;>
    simp [readValue, readScalar, writeString, dropBlanks, isBlank, readString_written .exact enough, bind, Except.bind]

/-! ## Numbers -/

/-- Only zero is written with a leading zero. -/
theorem head_toDigits_ne_zero {value : Nat} (positive : 0 < value) : ∃ digit digits,
    Nat.toDigits 10 value = digit :: digits ∧ digit ≠ '0' := by
  induction value using Nat.strongRecOn with
  | ind value ih =>
    by_cases small : value < 10
    · have digit : ∀ value < 10, 0 < value → value.digitChar ≠ '0' := by decide
      exact ⟨value.digitChar, [], Nat.toDigits_of_lt_base small, digit value small positive⟩
    · rw [Nat.toDigits_of_base_le (by decide) (by omega)]
      obtain ⟨digit, digits, shorter, notZero⟩ := ih (value / 10) (by omega) (by omega)
      exact ⟨digit, digits ++ [_], by rw [shorter]; rfl, notZero⟩

theorem readDigits_toDigits (value : Nat) (follow : Follow rest) :
    readDigits .exact (Nat.toDigits 10 value ++ rest) = .ok (Nat.toDigits 10 value, rest) := by
  have digits : ∀ c ∈ Nat.toDigits 10 value, c.isDigit = true := fun c mem =>
    Nat.isDigit_of_mem_toDigits (by decide) (by decide) mem
  have stops : rest.takeWhile Char.isDigit = [] ∧ rest.dropWhile Char.isDigit = rest := by
    cases follow <;> simp
  have taken : (Nat.toDigits 10 value ++ rest).takeWhile Char.isDigit = Nat.toDigits 10 value := by
    rw [List.takeWhile_append_of_pos digits, stops.1, List.append_nil]
  have left : (Nat.toDigits 10 value ++ rest).dropWhile Char.isDigit = rest := by
    rw [List.dropWhile_append_of_pos digits, stops.2]
  unfold readDigits
  rw [taken, left]
  split
  · exact absurd ‹_› Nat.toDigits_ne_nil
  · rfl

theorem readWhole_toDigits (value : Nat) (follow : Follow rest) :
    readWhole .exact (Nat.toDigits 10 value ++ rest) = .ok (Nat.toDigits 10 value, rest) := by
  simp only [readWhole, readDigits_toDigits value follow, bind, Except.bind]
  -- Digits after a leading zero would be refused.
  split
  case h_1 digits leading =>
    rcases Nat.eq_zero_or_pos value with rfl | positive
    · simp at leading
    · obtain ⟨digit, _, written, notZero⟩ := head_toDigits_ne_zero positive
      rw [written] at leading
      cases leading
      exact absurd rfl notZero
  case h_2 => rfl

end Json

namespace Double

theorem roundedQuotient_le (value unit : Nat) : roundedQuotient value unit ≤ value / unit + 1 := by
  simp only [roundedQuotient]
  split <;> omega

/-- Rounding moves a number by less than itself. -/
theorem round_le (value : Nat) : round value ≤ 2 * value := by
  rcases Nat.eq_zero_or_pos value with rfl | positive
  · decide
  · have unit : 2 ^ (value.log2 + 1 - precision) ≤ value := calc
      2 ^ (value.log2 + 1 - precision) ≤ 2 ^ value.log2 := Nat.pow_le_pow_right (by decide) (by simp [precision])
      _ ≤ value := Nat.log2_self_le (Nat.ne_of_gt positive)
    calc
      round value ≤ (value / 2 ^ (value.log2 + 1 - precision) + 1) * 2 ^ (value.log2 + 1 - precision) :=
        Nat.mul_le_mul_right _ (roundedQuotient_le _ _)
      _ = value / 2 ^ (value.log2 + 1 - precision) * 2 ^ (value.log2 + 1 - precision) +
          2 ^ (value.log2 + 1 - precision) := by rw [Nat.add_mul, Nat.one_mul]
      _ ≤ value + value := Nat.add_le_add (Nat.div_mul_le_self _ _) unit
      _ = 2 * value := (Nat.two_mul value).symm

theorem product_one_lt_infinity {value : Nat} (fits : value < UInt64.size) : product value 1 < infinity := by
  have one : round 1 = 1 := round_of_log2_lt (by decide)
  have large : Nat.pow 2 66 ≤ infinity := by
    unfold infinity
    apply Nat.pow_le_pow_right (by decide)
    decide
  calc
    product value 1 ≤ 2 * (round value * round 1) := round_le _
    _ = 2 * round value := by rw [one, Nat.mul_one]
    _ ≤ 2 * (2 * value) := Nat.mul_le_mul_left 2 (round_le value)
    _ < 2 * (2 * UInt64.size) := by omega
    _ ≤ infinity := large

end Double

namespace Numeral

theorem le_ofDigitChars (digits : List Char) (init : Nat) : init ≤ Nat.ofDigitChars 10 digits init := by
  rw [Nat.ofDigitChars_eq_ofDigitChars_zero]
  have grows : init ≤ 10 ^ digits.length * init := Nat.le_mul_of_pos_left init (Nat.pow_pos (by decide))
  omega

theorem appendDigits_of_lt {digits : List Char} {significand : Nat}
    (fits : Nat.ofDigitChars 10 digits significand < UInt64.size) :
    appendDigits significand digits = (Nat.ofDigitChars 10 digits significand, 0) := by
  induction digits generalizing significand with
  | nil => simp [appendDigits]
  | cons digit digits ih =>
    have value : Nat.ofDigitChars 10 (digit :: digits) significand =
        Nat.ofDigitChars 10 digits (significand * 10 + digitValue digit) := by
      rw [Nat.ofDigitChars_cons, Nat.mul_comm]
      rfl
    rw [value] at fits ⊢
    have longer : significand * 10 + digitValue digit < UInt64.size :=
      Nat.lt_of_le_of_lt (le_ofDigitChars digits _) fits
    simp only [appendDigits, longer, if_true, ih fits]

theorem isTooLarge_of_lt {negative : Bool} {value : Nat} (fits : value < UInt64.size) :
    isTooLarge ⟨negative, Nat.toDigits 10 value, none, none⟩ = false := by
  have whole : appendDigits 0 (Nat.toDigits 10 value) = (value, 0) := by
    have fits : Nat.ofDigitChars 10 (Nat.toDigits 10 value) 0 < UInt64.size := by simpa using fits
    simpa using appendDigits_of_lt fits
  have scientific : scientific ⟨negative, Nat.toDigits 10 value, none, none⟩ = (value, 0) := by
    simp [scientific, whole, appendDigits, exponentValue]
  unfold isTooLarge
  rw [scientific]
  split
  case h_1 => rfl
  case h_2 impossible => cases impossible
  case h_3 significand power _ _ same =>
    -- Without a fraction and an exponent, the significand is multiplied by one.
    cases same
    have finite := Double.product_one_lt_infinity fits
    simp [largestPower, finite]

/-- The numeral of an integer spells it. -/
theorem integer?_ofInt (value : Int) : (ofInt value).integer? = some value := by
  cases value with
  | ofNat value =>
    change integer? ⟨false, Nat.toDigits 10 value, none, none⟩ = some (value : Int)
    simp [integer?, digitsValue]
  | negSucc value => simp [ofInt, integer?, digitsValue]

end Numeral

namespace Json

theorem readNumeral_toDigits (negative : Bool) {value : Nat} (fits : value < UInt64.size) (follow : Follow rest) :
    readNumeral .exact negative (Nat.toDigits 10 value ++ rest) =
      .ok (⟨negative, Nat.toDigits 10 value, none, none⟩, rest) := by
  have fraction : readFraction .exact rest = .ok (none, rest) := by cases follow <;> rfl
  have exponent : readExponent .exact rest = .ok (none, rest) := by cases follow <;> rfl
  simp [readNumeral, readWhole_toDigits value follow, fraction, exponent, bind, Except.bind, Numeral.isTooLarge_of_lt fits]

theorem readValue_digit {c : Char} (digit : c.isDigit = true) : readValue .exact limit budget (c :: rest) =
    (readNumeral .exact false (c :: rest)).map fun (numeral, rest) => (.number numeral, rest) := by
  have differs (other : Char) (notDigit : other.isDigit = false) : c ≠ other := by
    rintro rfl
    simp [digit] at notDigit
  have scalar : readScalar .exact limit (c :: rest) =
      (readNumeral .exact false (c :: rest)).map fun (numeral, rest) => (.number numeral, rest) := by
    cases read : readNumeral .exact false (c :: rest) <;>
      simp [readScalar, differs 'n' rfl, differs 't' rfl, differs 'f' rfl, differs '"' rfl, differs '-' rfl, digit, read,
        bind, Except.bind, Except.map]
  have notBlank : isBlank c = false := by
    simp [isBlank, differs ' ' rfl, differs '\t' rfl, differs '\n' rfl, differs '\r' rfl]
  rw [← scalar]
  cases budget with
  | zero => rw [readValue, dropBlanks_cons_of_notBlank notBlank]
  | succ budget => simp [readValue, dropBlanks_cons_of_notBlank notBlank, differs '[' rfl, differs '\x7b' rfl]

theorem takes_number {value : Int} (fits : value.natAbs < UInt64.size) :
    Reader.Takes (readValue .exact limit budget) (writeInt value) (.number (.ofInt value)) := by
  intro rest follow
  unfold writeInt
  split
  case isTrue negative =>
    have numeral := readNumeral_toDigits true fits follow
    cases budget <;>
      simp [readValue, readScalar, dropBlanks, isBlank, numeral, bind, Except.bind, Numeral.ofInt, negative]
  case isFalse positive =>
    obtain ⟨digit, digits, written⟩ := List.exists_cons_of_ne_nil (Nat.toDigits_ne_nil (n := value.natAbs) (b := 10))
    have isDigit : digit.isDigit = true :=
      Nat.isDigit_of_mem_toDigits (b := 10) (n := value.natAbs) (by decide) (by decide) (by simp [written])
    have numeral := readNumeral_toDigits false fits follow
    rw [written, List.cons_append] at numeral ⊢
    rw [readValue_digit isDigit, numeral]
    simp [Except.map, Numeral.ofInt, positive, written]

/-! ## Lists and objects -/

theorem writeSeparated_cons (item : List Char) (items : List (List Char)) :
    writeSeparated (item :: items) = item ++ items.flatMap fun other => ',' :: other := by
  induction items generalizing item with
  | nil => simp [writeSeparated]
  | cons other items ih => simp [writeSeparated, ih]

theorem length_le_writeSeparated_of_mem {item : List Char} {items : List (List Char)} (mem : item ∈ items) :
    item.length ≤ (writeSeparated items).length := by
  cases items with
  | nil => cases mem
  | cons first items =>
    rw [writeSeparated_cons, List.length_append]
    rcases List.mem_cons.mp mem with rfl | mem
    · omega
    · have inside : item.length < (items.flatMap fun other => ',' :: other).length := by
        obtain ⟨before, after, rfl⟩ := List.append_of_mem mem
        simp
        omega
      omega

theorem length_le_flatMap_comma (items : List (List Char)) :
    items.length ≤ (items.flatMap fun other => ',' :: other).length := by
  induction items with
  | nil => simp
  | cons item items ih =>
    simp only [List.flatMap_cons, List.length_append, List.length_cons]
    omega

theorem length_le_writeSeparated {items : List (List Char)} (filled : ∀ item ∈ items, item ≠ []) :
    items.length ≤ (writeSeparated items).length := by
  cases items with
  | nil => simp
  | cons first items =>
    have := List.length_pos_iff.mpr (filled first List.mem_cons_self)
    have := length_le_flatMap_comma items
    simp only [writeSeparated_cons, List.length_append, List.length_cons]
    omega

theorem dropBlanks_comma : dropBlanks (',' :: rest) = ',' :: rest := rfl

/-- A text that starts like a value. -/
def StartsValue (text : List Char) : Prop := ∃ c after, text = c :: after ∧ isBlank c = false ∧ c ≠ ']'

theorem follow_flatMap_comma (items : List (List Char)) (follow : Follow text) :
    Follow ((items.flatMap fun other => ',' :: other) ++ text) := by
  cases items with
  | nil => exact follow
  | cons item items => exact .comma _

section Elements

variable {β : Type} {element : Reader α} {write : β → List Char} {value : β → α}

theorem readMoreElements_written {items : List β} (takes : ∀ item ∈ items, element.Takes (write item) (value item))
    (starts : ∀ item ∈ items, StartsValue (write item)) (enough : items.length ≤ limit) :
    readMoreElements element limit ((items.map write).flatMap (fun other => ',' :: other) ++ ']' :: rest) =
      .ok (items.map value, rest) := by
  induction items generalizing limit with
  | nil => simp [readMoreElements, dropBlanks, isBlank]
  | cons item items ih =>
    obtain ⟨takesFirst, takes⟩ := List.forall_mem_cons.mp takes
    obtain ⟨⟨c, after, starts', notBlank, notClosed⟩, starts⟩ := List.forall_mem_cons.mp starts
    obtain ⟨more, rfl⟩ : ∃ more, limit = more + 1 := Nat.exists_eq_add_one.mpr (by simp at enough; omega)
    have enough : items.length ≤ more := by simpa using enough
    have first := takesFirst (follow_flatMap_comma (items.map write) (.bracket rest))
    rw [starts', List.cons_append] at first
    rw [readMoreElements]
    simp [dropBlanks_comma, dropBlanks_cons_of_notBlank, starts', notBlank, notClosed, first, ih takes starts enough, bind,
      Except.bind]

/-- A written list is read back if its elements are. -/
theorem readElements_written {items : List β} (takes : ∀ item ∈ items, element.Takes (write item) (value item))
    (starts : ∀ item ∈ items, StartsValue (write item)) (enough : items.length ≤ limit) :
    readElements element limit (writeSeparated (items.map write) ++ ']' :: rest) = .ok (items.map value, rest) := by
  cases items with
  | nil => simp [readElements, writeSeparated, dropBlanks, isBlank]
  | cons item items =>
    obtain ⟨takesFirst, takes⟩ := List.forall_mem_cons.mp takes
    obtain ⟨⟨c, after, starts', notBlank, notClosed⟩, starts⟩ := List.forall_mem_cons.mp starts
    have enough : items.length ≤ limit := by simp at enough; omega
    have first := takesFirst (follow_flatMap_comma (items.map write) (.bracket rest))
    rw [starts', List.cons_append] at first
    simp [readElements, writeSeparated_cons, dropBlanks_cons_of_notBlank, starts', notBlank, notClosed, first,
      readMoreElements_written takes starts enough, bind, Except.bind]

end Elements

section Members

variable {member : σ → String → Reader σ} {start final : σ} {members : List (String × List Char)}

/-- Reading the members with the written values one after the other leads from a state to another. -/
inductive Gathers (member : σ → String → Reader σ) : σ → List (String × List Char) → σ → Prop
  | nil {state : σ} : Gathers member state [] state
  | cons {state next final : σ} {key : String} {text : List Char} {members : List (String × List Char)}
      (takes : (member state key).Takes (':' :: text) next) (more : Gathers member next members final) :
      Gathers member state ((key, text) :: members) final

/-- A written member. -/
def writeMember (entry : String × List Char) : List Char := writeString entry.1 ++ ':' :: entry.2

theorem writeObject_eq (members : List (String × List Char)) :
    writeObject members = '\x7b' :: writeSeparated (members.map writeMember) ++ ['\x7d'] := rfl

theorem readMoreMembers_written {keyLimit : Nat} (care : Care) (gathers : Gathers member start members final)
    (keys : ∀ entry ∈ members, (writeString entry.1).length ≤ keyLimit) (enough : members.length ≤ limit) :
    readMoreMembers care keyLimit member limit start
      ((members.map writeMember).flatMap (fun other => ',' :: other) ++ '\x7d' :: rest) = .ok (final, rest) := by
  induction gathers generalizing limit with
  | nil =>
    rw [readMoreMembers]
    rfl
  | @cons state next final key text members takes more ih =>
    obtain ⟨firstKey, keys⟩ := List.forall_mem_cons.mp keys
    obtain ⟨left, rfl⟩ : ∃ left, limit = left + 1 := Nat.exists_eq_add_one.mpr (by simp at enough; omega)
    have enough : members.length ≤ left := by simpa using enough
    have first := takes (follow_flatMap_comma (members.map writeMember) (.brace rest))
    rw [List.cons_append] at first
    rw [readMoreMembers]
    simp [dropBlanks_comma, writeMember, readKey_written care firstKey, first, ih keys enough, bind, Except.bind]

/-- A written object is read back if its members are. -/
theorem readMembers_written (care : Care) (gathers : Gathers member start members final)
    (keys : ∀ entry ∈ members, (writeString entry.1).length ≤ limit) (enough : members.length ≤ limit) :
    readMembers care limit member start (writeSeparated (members.map writeMember) ++ '\x7d' :: rest) =
      .ok (final, rest) := by
  cases gathers with
  | nil => rfl
  | @cons _ next _ key text members takes more =>
    obtain ⟨firstKey, keys⟩ := List.forall_mem_cons.mp keys
    have enough : members.length ≤ limit := by simp at enough; omega
    have first := takes (follow_flatMap_comma (members.map writeMember) (.brace rest))
    have quoted (after : List Char) : dropBlanks (writeString key ++ after) = writeString key ++ after := rfl
    unfold readMembers
    simp only [List.map_cons, writeSeparated_cons, writeMember, List.append_assoc, quoted]
    split
    case h_1 empty => simp [writeString] at empty
    case h_2 closed => simp [writeString] at closed
    case h_3 =>
      rw [List.cons_append] at first
      simp [readKey_written care firstKey, first, readMoreMembers_written care more keys enough, bind, Except.bind]

end Members

end Json

end MipsBackend
