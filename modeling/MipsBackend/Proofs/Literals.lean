import Mathlib.Data.Nat.Find
import MipsBackend.StringTable

/-! # Stored string literals

Literals keep every text they were given, each under the name of its position. The names are distinct
because decimal numerals are, so no text hides another one.

* `StringLiterals.Holds`: the literals hold given texts under the names of their positions, and nothing else.
* `StringTable.Stores`, `StringTable.Lacks`: a table has a text at every position it counts, or there is a first one
  where it has none. `StringTable.entries` finds out which.
-/

namespace MipsBackend

theorem literalName_injective {left right : Nat} (same : literalName left = literalName right) :
    left = right := by
  have numerals : (Nat.repr left).toList = (Nat.repr right).toList := by
    have characters := congrArg String.toList same
    simp only [literalName, String.toList_append] at characters
    exact List.append_cancel_left characters
  rw [Nat.toList_repr, Nat.toList_repr] at numerals
  have values := congrArg (fun digits => Nat.ofDigitChars 10 digits 0) numerals
  simpa using values

/-! ## Tables -/

namespace StringTable

/-- The table has the given texts at the positions it counts. -/
structure Stores (table : StringTable) (texts : List String) : Prop where
  count : table.count = texts.length
  lookup : ∀ index < texts.length, table.lookup (literalName index) = texts[index]?

/-- The table has no text at `index`, which is the first such position among those it counts. -/
structure Lacks (table : StringTable) (index : Nat) : Prop where
  below : index < table.count
  absent : table.lookup (literalName index) = none
  first : ∀ earlier < index, table.lookup (literalName earlier) ≠ none

variable {table : StringTable}

theorem stores_or_lacks (table : StringTable) : (∃ texts, table.Stores texts) ∨ ∃ index, table.Lacks index := by
  by_cases gap : ∃ index, index < table.count ∧ table.lookup (literalName index) = none
  · obtain ⟨below, absent⟩ := Nat.find_spec gap
    have first : ∀ earlier < Nat.find gap, table.lookup (literalName earlier) ≠ none :=
      fun earlier before missing => Nat.find_min gap before ⟨Nat.lt_trans before below, missing⟩
    exact .inr ⟨_, below, absent, first⟩
  · let texts := (List.range table.count).map fun index => (table.lookup (literalName index)).getD ""
    have found : ∀ index < texts.length, table.lookup (literalName index) = texts[index]? := by
      intro index below
      have counted : index < table.count := by simpa [texts] using below
      cases stored : table.lookup (literalName index) with
      | none => exact absurd ⟨index, counted, stored⟩ gap
      | some text => simp [texts, counted, stored]
    exact .inl ⟨texts, by simp [texts], found⟩

theorem Stores.entriesFrom (done rest : List String) (stores : table.Stores (done ++ rest)) :
    table.entriesFrom rest.length done.length =
      .ok ((rest.zipIdx done.length).map fun entry => (literalName entry.2, entry.1)) := by
  induction rest generalizing done with
  | nil => rfl
  | cons text rest ih =>
    have found : table.lookup (literalName done.length) = some text := by
      rw [stores.lookup done.length (by simp)]
      simp
    have others := ih (done ++ [text]) (by simpa using stores)
    rw [List.length_append, List.length_singleton] at others
    simp [StringTable.entriesFrom, found, others, Except.map]

theorem Stores.entries {texts : List String} (stores : table.Stores texts) :
    table.entries = .ok (texts.zipIdx.map fun entry => (literalName entry.2, entry.1)) := by
  rw [StringTable.entries, stores.count]
  exact Stores.entriesFrom [] texts stores

/-- The first position without a text ends the search, whatever is stored behind it. -/
theorem Lacks.entriesFrom {index : Nat} (lacks : table.Lacks index) (count start : Nat) (after : start ≤ index)
    (within : index < start + count) : table.entriesFrom count start = .error (literalName index) := by
  induction count generalizing start with
  | zero => omega
  | succ count ih =>
    by_cases here : start = index
    · simp [StringTable.entriesFrom, here, lacks.absent]
    · obtain ⟨text, found⟩ := Option.ne_none_iff_exists'.mp (lacks.first start (by omega))
      simp [StringTable.entriesFrom, found, ih (start + 1) (by omega) (by omega), Except.map]

theorem Lacks.entries {index : Nat} (lacks : table.Lacks index) : table.entries = .error (literalName index) := by
  have within : index < 0 + table.count := by
    rw [Nat.zero_add]
    exact lacks.below
  exact lacks.entriesFrom table.count 0 (Nat.zero_le index) within

end StringTable

/-! ## Literals in order of arrival -/

namespace StringLiterals

/-- The literals hold the given texts, each under the name of its position, and nothing under any other name. -/
structure Holds (literals : StringLiterals) (texts : List String) : Prop where
  count : literals.count = texts.length
  lookup_eq_some_iff : ∀ name text, literals.lookup name = some text ↔
    ∃ index, name = literalName index ∧ texts[index]? = some text

theorem lookup_insert (literals : StringLiterals) (text name : String) :
    (literals.insert text).2.lookup name =
      if name = literalName literals.count then some text else literals.lookup name := by
  by_cases own : name = literalName literals.count
  · simp [lookup, insert, own]
  · have differs : (name == literalName literals.count) = false := by simpa using own
    simp [lookup, insert, List.lookup_cons, own, differs]

namespace Holds

variable {literals : StringLiterals} {texts : List String}

theorem lookup (holds : literals.Holds texts) (index : Nat) :
    literals.lookup (literalName index) = texts[index]? := by
  apply Option.ext
  intro text
  rw [holds.lookup_eq_some_iff]
  constructor
  · rintro ⟨position, same, found⟩
    rwa [literalName_injective same]
  · exact fun found => ⟨index, rfl, found⟩

theorem lookup_eq_none (holds : literals.Holds texts) {name : String}
    (other : ∀ index < texts.length, name ≠ literalName index) : literals.lookup name = none := by
  apply Option.eq_none_iff_forall_ne_some.mpr
  intro text stored
  obtain ⟨index, same, found⟩ := (holds.lookup_eq_some_iff name text).mp stored
  exact other index (List.getElem?_eq_some_iff.mp found).1 same

theorem stores (holds : literals.Holds texts) : literals.table.Stores texts where
  count := holds.count
  lookup index _ := holds.lookup index

theorem insert (holds : literals.Holds texts) (text : String) : (literals.insert text).2.Holds (texts ++ [text]) where
  count := by simp [StringLiterals.insert, holds.count]
  lookup_eq_some_iff name other := by
    rw [lookup_insert, holds.count]
    by_cases own : name = literalName texts.length
    · have last : (∃ index, name = literalName index ∧ (texts ++ [text])[index]? = some other) ↔ text = other := by
        constructor
        · rintro ⟨index, same, found⟩
          obtain rfl := literalName_injective (own.symm.trans same)
          simpa using found
        · rintro rfl
          exact ⟨texts.length, own, by simp⟩
      rw [if_pos own, last, Option.some.injEq]
    · rw [if_neg own, holds.lookup_eq_some_iff]
      -- The new text is not found under an older name.
      refine exists_congr fun index => and_congr_right fun same => ?_
      have apart : index ≠ texts.length := by
        rintro rfl
        exact own same
      obtain below | above := Nat.lt_or_gt_of_ne apart
      · rw [List.getElem?_append_left below]
      · rw [List.getElem?_eq_none (by omega), List.getElem?_eq_none (by simp; omega)]

theorem foldl (holds : literals.Holds texts) (more : List String) :
    (more.foldl (fun literals text => (literals.insert text).2) literals).Holds (texts ++ more) := by
  induction more generalizing literals texts with
  | nil => simpa using holds
  | cons text more ih => simpa using ih (holds.insert text)

end Holds

theorem holds_ofList (texts : List String) : (ofList texts).Holds texts := by
  have empty : ({} : StringLiterals).Holds [] := ⟨rfl, fun name text => by simp [StringLiterals.lookup]⟩
  exact empty.foldl texts

/-- Every text is found again, in order. -/
theorem entries_ofList (texts : List String) :
    (ofList texts).table.entries =
      .ok (texts.zipIdx.map fun entry => (literalName entry.2, entry.1)) :=
  (holds_ofList texts).stores.entries

/-- Each text is stored under the name of its position, behind the texts before it. -/
theorem insert_ofList {texts : List String} {index : Nat} {text : String} (here : texts[index]? = some text) :
    (ofList (texts.take index)).insert text = (literalName index, ofList (texts.take (index + 1))) := by
  have below : index < texts.length := (List.getElem?_eq_some_iff.mp here).1
  have count : (ofList (texts.take index)).count = index := by
    rw [(holds_ofList _).count, List.length_take]
    omega
  have name : ((ofList (texts.take index)).insert text).1 = literalName index := by rw [StringLiterals.insert, count]
  have stored : ((ofList (texts.take index)).insert text).2 = ofList (texts.take (index + 1)) := by
    rw [List.take_add_one, here, ofList, ofList, List.foldl_append]
    rfl
  rw [← name, ← stored]

end StringLiterals

end MipsBackend
