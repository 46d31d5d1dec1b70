import MipsBackend.Proofs.Outcome
import MipsBackend.Script.Reader

/-! # Requests read from text

A request is read from text without building its JSON value first, and refused as soon as a member does not fit. This
module shows that nothing depends on it: a text that spells a JSON value is read as the request of that value.

* `Json.readMembers_eq_foldlM`: reading the members of an object step by step is a fold over the members.
* `Request.read_eq_ofJson`: what is read is what the JSON value decodes to.
-/

namespace MipsBackend

variable {limit budget : Nat} {text rest : List Char}

namespace Json

/-! ## Blanks -/

theorem dropBlanks_cons_of_notBlank {c : Char} (notBlank : isBlank c = false) : dropBlanks (c :: rest) = c :: rest := by
  simp [dropBlanks, notBlank]

@[simp] theorem dropBlanks_dropBlanks (text : List Char) : dropBlanks (dropBlanks text) = dropBlanks text := by
  induction text with
  | nil => rfl
  | cons c text ih =>
    cases blank : isBlank c with
    | true => simpa [dropBlanks, blank] using ih
    | false => simp [dropBlanks, blank]

/-! ## Scalars -/

/-- Neither a text nor a value with brackets. -/
def IsPlain : Json → Prop
  | string _ | array _ | object _ => False
  | _ => True

theorem readScalar_quote (care : Care) : readScalar care limit ('"' :: text) =
    (readString care limit text).map fun (value, rest) => (.string value, rest) := by
  cases read : readString care limit text <;> simp [readScalar, read, bind, Except.bind, Except.map]

/-- A scalar is a text if it starts with a quote, and plain otherwise. -/
theorem readScalar_cases {care : Care} {json : Json} (read : readScalar care limit text = .ok (json, rest)) :
    (∃ after value, text = '"' :: after ∧ json = .string value) ∨ json.IsPlain := by
  unfold readScalar at read
  split at read
  case h_1 => cases read
  case h_5 =>
    obtain ⟨⟨value, _⟩, _, read⟩ := exceptBind_eq_ok_iff.mp read
    cases read
    exact .inl ⟨_, value, rfl, rfl⟩
  case h_7 =>
    split at read
    · obtain ⟨_, _, read⟩ := exceptBind_eq_ok_iff.mp read
      cases read
      exact .inr trivial
    · cases read
  all_goals
    obtain ⟨_, _, read⟩ := exceptBind_eq_ok_iff.mp read
    cases read
    exact .inr trivial

/-- How a value is read, by its first character. -/
theorem readValue_cases {care : Care} {json : Json} (read : readValue care limit budget text = .ok (json, rest)) :
    (∃ after, dropBlanks text = '[' :: after ∧ ∃ elements, json = .array elements) ∨
    (∃ after, dropBlanks text = '\x7b' :: after ∧ ∃ members, json = .object members) ∨
    readScalar care limit (dropBlanks text) = .ok (json, rest) := by
  cases budget with
  | zero => exact .inr (.inr read)
  | succ budget =>
    unfold readValue at read
    split at read
    case h_1 after opened =>
      obtain ⟨⟨elements, _⟩, _, read⟩ := exceptBind_eq_ok_iff.mp read
      cases read
      exact .inl ⟨after, opened, elements, rfl⟩
    case h_2 after opened =>
      obtain ⟨⟨members, _⟩, _, read⟩ := exceptBind_eq_ok_iff.mp read
      cases read
      exact .inr (.inl ⟨after, opened, members.reverse, rfl⟩)
    case h_3 => exact .inr (.inr read)

theorem refuseValue_dropBlanks {α : Type} : (refuseValue limit : Reader α) (dropBlanks text) = refuseValue limit text := by
  simp [refuseValue]

/-- Where a value can be read, refusing it is a fault of shape. -/
theorem refuseValue_of_readValue {α : Type} {json : Json}
    (read : readValue .exact limit budget text = .ok (json, rest)) :
    (refuseValue limit : Reader α) text = .error .misshapen := by
  unfold refuseValue
  split
  case h_1 => rfl
  case h_2 => rfl
  case h_3 notArray notObject =>
    rcases readValue_cases read with ⟨after, opened, _⟩ | ⟨after, opened, _⟩ | scalar
    · exact absurd opened (notArray after)
    · exact absurd opened (notObject after)
    · simp [scalar, bind, Except.bind]

/-- Where a value can be read, only a text is read as a text. -/
theorem readText_of_readValue {json : Json} (read : readValue .exact limit budget text = .ok (json, rest)) :
    readText limit text = match json with
      | .string value => .ok (value, rest)
      | _ => .error .misshapen := by
  unfold readText
  split
  case h_1 after quoted =>
    rcases readValue_cases read with ⟨_, opened, _⟩ | ⟨_, opened, _⟩ | scalar
    · cases quoted.symm.trans opened
    · cases quoted.symm.trans opened
    · rw [quoted, readScalar_quote] at scalar
      cases string : readString .exact limit after with
      | error fault => simp [string, Except.map] at scalar
      | ok found =>
        rw [string] at scalar
        cases scalar
        rfl
  case h_2 notQuote =>
    rw [refuseValue_dropBlanks, refuseValue_of_readValue read]
    rcases readValue_cases read with ⟨_, _, _, rfl⟩ | ⟨_, _, _, rfl⟩ | scalar
    · rfl
    · rfl
    · rcases readScalar_cases scalar with ⟨after, _, quoted, _⟩ | plain
      · exact absurd quoted (notQuote after)
      · cases json with
        | string => cases plain
        | _ => rfl

/-! ## Objects -/

section Members

variable {α σ : Type} {value : Reader α} {step : σ → String × α → Except ReadFault σ} {member : σ → String → Reader σ}
  {keyLimit : Nat} {care : Care}

/-- Gathers the members of an object, the last one first. -/
def gather (value : Reader α) (gathered : List (String × α)) (key : String) : Reader (List (String × α)) := fun text => do
  let (found, rest) ← readAfterColon value text
  .ok ((key, found) :: gathered, rest)

/-- `member` reads what `step` makes of the members. -/
def Follows (value : Reader α) (step : σ → String × α → Except ReadFault σ) (member : σ → String → Reader σ) : Prop :=
  ∀ ⦃state key text found rest⦄, readAfterColon value text = .ok (found, rest) →
    member state key text = (step state (key, found)).map (·, rest)

theorem readMoreMembers_eq_foldlM (follows : Follows value step member) {gathered all : List (String × α)}
    (read : readMoreMembers care keyLimit (gather value) limit gathered text = .ok (all, rest)) :
    ∃ members : List (String × α), all = members.reverse ++ gathered ∧ ∀ state,
      readMoreMembers care keyLimit member limit state text = (members.foldlM step state).map (·, rest) := by
  induction limit generalizing gathered text with
  | zero =>
    unfold readMoreMembers at read
    split at read
    case h_2 closed =>
      cases read
      exact ⟨[], rfl, fun state => by rw [readMoreMembers, closed]; rfl⟩
    all_goals cases read
  | succ limit ih =>
    unfold readMoreMembers at read
    split at read
    case h_2 closed =>
      cases read
      exact ⟨[], rfl, fun state => by rw [readMoreMembers, closed]; rfl⟩
    case h_3 comma =>
      obtain ⟨⟨key, afterKey⟩, keyed, read⟩ := exceptBind_eq_ok_iff.mp read
      obtain ⟨⟨next, afterValue⟩, gathers, read⟩ := exceptBind_eq_ok_iff.mp read
      obtain ⟨⟨found, left⟩, valued, gathers⟩ := exceptBind_eq_ok_iff.mp gathers
      cases gathers
      obtain ⟨members, rfl, folds⟩ := ih read
      -- Both readers take the same key and value off the text, and differ only in what they keep of them.
      refine ⟨(key, found) :: members, by simp, fun state => ?_⟩
      rw [readMoreMembers, comma]
      cases stepped : step state (key, found) with
      | error fault => simp [keyed, follows valued, stepped, bind, Except.bind, Except.map]
      | ok next => simpa [keyed, follows valued, stepped, bind, Except.bind, Except.map] using folds next
    all_goals cases read

/-- What is read of the members of an object is a fold over them. -/
theorem readMembers_eq_foldlM (follows : Follows value step member) {all : List (String × α)}
    (read : readMembers care limit (gather value) [] text = .ok (all, rest)) (state : σ) :
    readMembers care limit member state text = (all.reverse.foldlM step state).map (·, rest) := by
  unfold readMembers at read ⊢
  split at read
  case h_1 => cases read
  case h_2 closed =>
    cases read
    rfl
  case h_3 =>
    obtain ⟨⟨key, afterKey⟩, keyed, read⟩ := exceptBind_eq_ok_iff.mp read
    obtain ⟨⟨next, afterValue⟩, gathers, read⟩ := exceptBind_eq_ok_iff.mp read
    obtain ⟨⟨found, left⟩, valued, gathers⟩ := exceptBind_eq_ok_iff.mp gathers
    cases gathers
    obtain ⟨members, rfl, folds⟩ := readMoreMembers_eq_foldlM follows read
    cases stepped : step state (key, found) with
    | error fault => simp [keyed, follows valued, stepped, bind, Except.bind, Except.map]
    | ok next => simpa [keyed, follows valued, stepped, bind, Except.bind, Except.map] using folds next

end Members

end Json

/-! ## Requests -/

namespace Request

theorem readDraftMember_follows :
    Json.Follows (Json.readValue .exact limit budget) Draft.add (readDraftMember limit budget) := by
  intro draft key text found rest valued
  obtain ⟨after, colon, valued⟩ : ∃ after, Json.dropBlanks text = ':' :: after ∧
      Json.readValue .exact limit budget after = .ok (found, rest) := by
    unfold Json.readAfterColon at valued
    split at valued
    case h_2 after colon => exact ⟨after, colon, valued⟩
    all_goals cases valued
  unfold readDraftMember
  split
  case isTrue second =>
    -- A second tag is refused before its value is looked at.
    simp only [Bool.and_eq_true, decide_eq_true_eq, Option.isSome_iff_exists] at second
    obtain ⟨rfl, kind, known⟩ := second
    simp [Draft.add, Draft.addTag, known, Except.map]
  case isFalse =>
    simp only [Json.readAfterColon, colon, readMemberValue]
    by_cases isTag : key = tagKey
    · simp only [isTag, if_true, Json.readText_of_readValue valued]
      cases found with
      | string tag => simp [bind, Except.bind, Except.map]
      | _ => simp [bind, Except.bind, Except.map, Draft.add, Draft.addTag]
    · simp [isTag, valued, bind, Except.bind, Except.map, Draft.add]

/-- A text that spells a JSON value is read as the request of that value. -/
theorem read_eq_ofJson {json : Json} (spelled : Json.readValue .exact limit (budget + 1) text = .ok (json, rest)) :
    read limit budget text = (ofJson json).map (·, rest) := by
  unfold read
  split
  case h_1 opened =>
    simp only [Json.readValue, opened] at spelled
    obtain ⟨⟨members, left⟩, gathered, spelled⟩ := exceptBind_eq_ok_iff.mp spelled
    cases spelled
    rw [Json.readMembers_eq_foldlM readDraftMember_follows gathered]
    cases folded : members.reverse.foldlM Draft.add {} with
    | error fault => simp [ofJson, folded, bind, Except.bind, Except.map]
    | ok draft => cases finished : draft.finish <;> simp [ofJson, folded, finished, bind, Except.bind, Except.map]
  case h_2 after opened =>
    simp only [Json.readValue, opened] at spelled
    obtain ⟨⟨elements, left⟩, read, spelled⟩ := exceptBind_eq_ok_iff.mp spelled
    cases spelled
    unfold Json.readElements at read
    split at read
    case h_1 => cases read
    case h_2 closed =>
      cases read
      simp only [closed, ofJson, Except.map]
    case h_3 =>
      obtain ⟨⟨first, afterFirst⟩, valued, read⟩ := exceptBind_eq_ok_iff.mp read
      obtain ⟨⟨others, left⟩, more, read⟩ := exceptBind_eq_ok_iff.mp read
      cases read
      simp only [Json.readText_of_readValue valued]
      -- The tag is looked up before the other elements are read, but those are known to be readable.
      cases first with
      | string tag =>
        cases known : kindOfTag tag with
        | error fault => simp [ofJson, known, bind, Except.bind, Except.map]
        | ok kind =>
          cases filled : ofElements kind others <;> simp [ofJson, known, more, filled, bind, Except.bind, Except.map]
      | _ => simp [ofJson, bind, Except.bind, Except.map]
  case h_3 notObject notArray =>
    rw [Json.refuseValue_dropBlanks, Json.refuseValue_of_readValue spelled]
    rcases Json.readValue_cases spelled with ⟨_, opened, _⟩ | ⟨_, opened, _⟩ | scalar
    · exact absurd opened (notArray _)
    · exact absurd opened (notObject _)
    · rcases Json.readScalar_cases scalar with ⟨_, _, _, rfl⟩ | plain
      · rfl
      · cases json with
        | array | object => cases plain
        | _ => rfl

end Request

end MipsBackend
