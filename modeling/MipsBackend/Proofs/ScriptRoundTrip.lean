import MipsBackend.Proofs.RequestLayout
import MipsBackend.Script.Writer

/-! # Scripts written and read back

The text of a script spells one JSON value, and parsing it gives the script back.

* `Json.readValue_writeArray`, `Json.readValue_writeObject`: a written list or object spells its JSON value.
* `Request.takes_written`: a written request is read back.
* `Script.parse_render`: so is a script.
-/

namespace MipsBackend

/-! ## Values -/

/-- The JSON value of a field. -/
def FieldValue.toJson : FieldValue → Json
  | text value => .string value
  | integer value => .number (.ofInt value.toInt)
  | count value => .number (.ofInt value.toNat)

theorem FieldValue.spells_toJson (value : FieldValue) : value.Spells value.toJson := by
  cases value with
  | text value => exact .text value
  | integer value => exact .integer (Numeral.integer?_ofInt _)
  | count value => exact .count (Numeral.integer?_ofInt _)

variable {α : Type} {limit budget : Nat} {rest : List Char}

theorem FieldValue.takes_written {value : FieldValue} (enough : value.written.length ≤ limit) :
    Reader.Takes (Json.readValue .exact limit budget) value.written value.toJson := by
  cases value with
  | text value => exact Json.takes_string enough
  | integer value =>
    have low := value.le_toInt
    have high := value.toInt_lt
    have size : UInt64.size = 2 ^ 64 := rfl
    exact Json.takes_number (by omega)
  | count value =>
    have fits := value.toNat_lt_size
    exact Json.takes_number (by simpa using fits)

namespace Json

/-! ## Lists -/

section Lists

variable {β : Type} {element : Reader α} {write : β → List Char} {value : β → α} {items : List β}

theorem writeArray_append (items : List (List Char)) :
    writeArray items ++ rest = '[' :: (writeSeparated items ++ ']' :: rest) := by
  simp [writeArray]

theorem length_le_writeArray {item : β} (mem : item ∈ items) :
    (write item).length ≤ (writeArray (items.map write)).length := by
  have inside := length_le_writeSeparated_of_mem (List.mem_map.mpr ⟨item, mem, rfl⟩ : write item ∈ items.map write)
  simp only [writeArray, List.cons_append, List.length_cons, List.length_append]
  omega

/-- A written list is read back if its elements are. -/
theorem readElements_writeArray (takes : ∀ item ∈ items, element.Takes (write item) (value item))
    (starts : ∀ item ∈ items, StartsValue (write item)) (enough : (writeArray (items.map write)).length ≤ limit) :
    readElements element limit (writeSeparated (items.map write) ++ ']' :: rest) = .ok (items.map value, rest) := by
  have filled : ∀ text ∈ items.map write, text ≠ [] := by
    intro text written
    obtain ⟨item, mem, rfl⟩ := List.mem_map.mp written
    obtain ⟨c, after, starting, _⟩ := starts item mem
    simp [starting]
  -- No element is empty, so there are not more elements than characters.
  have count := length_le_writeSeparated filled
  simp only [writeArray, List.cons_append, List.length_cons, List.length_append, List.length_map] at enough count
  exact readElements_written takes starts (by omega)

theorem readValue_writeArray {value : β → Json}
    (takes : ∀ item ∈ items, Reader.Takes (readValue .exact limit budget) (write item) (value item))
    (starts : ∀ item ∈ items, StartsValue (write item)) (enough : (writeArray (items.map write)).length ≤ limit) :
    readValue .exact limit (budget + 1) (writeArray (items.map write) ++ rest) =
      .ok (.array (items.map value), rest) := by
  rw [writeArray_append, readValue, dropBlanks_cons_of_notBlank (by decide)]
  simp [readElements_writeArray takes starts enough, bind, Except.bind]

end Lists

/-! ## Objects -/

section Objects

variable {β : Type} {write : β → List Char} {value : β → Json} {entries : List (String × β)}

/-- The written members of an object. -/
def writeEntries (write : β → List Char) (entries : List (String × β)) : List (String × List Char) :=
  entries.map fun entry => (entry.1, write entry.2)

theorem writeObject_append (members : List (String × List Char)) :
    writeObject members ++ rest = '\x7b' :: (writeSeparated (members.map writeMember) ++ '\x7d' :: rest) := by
  simp [writeObject_eq]

theorem length_lt_writeObject {key : String} {text : List Char} {members : List (String × List Char)}
    (mem : (key, text) ∈ members) : (writeString key).length + text.length < (writeObject members).length := by
  have written : writeMember (key, text) ∈ members.map writeMember := List.mem_map.mpr ⟨_, mem, rfl⟩
  have inside := length_le_writeSeparated_of_mem written
  simp only [writeMember, List.length_append, List.length_cons] at inside
  simp only [writeObject_eq, List.cons_append, List.length_cons, List.length_append]
  omega

theorem length_le_writeEntries {entry : String × β} (mem : entry ∈ entries) :
    (write entry.2).length ≤ (writeObject (writeEntries write entries)).length := by
  have written : (entry.1, write entry.2) ∈ writeEntries write entries := List.mem_map.mpr ⟨entry, mem, rfl⟩
  have inside := length_lt_writeObject written
  omega

/-- A written object is read back if its members are. -/
theorem readMembers_writeObject {σ : Type} {member : σ → String → Reader σ} {start final : σ}
    {members : List (String × List Char)} (gathers : Gathers member start members final)
    (enough : (writeObject members).length ≤ limit) :
    readMembers .exact limit member start (writeSeparated (members.map writeMember) ++ '\x7d' :: rest) =
      .ok (final, rest) := by
  have keys : ∀ entry ∈ members, (writeString entry.1).length ≤ limit := by
    intro entry mem
    have inside := length_lt_writeObject mem
    omega
  have filled : ∀ text ∈ members.map writeMember, text ≠ [] := by
    intro text written
    obtain ⟨entry, _, rfl⟩ := List.mem_map.mp written
    simp [writeMember]
  have count := length_le_writeSeparated filled
  simp only [writeObject_eq, List.cons_append, List.length_cons, List.length_append, List.length_map] at enough count
  exact readMembers_written .exact gathers keys (by omega)

theorem takes_gather {reader : Reader α} {text : List Char} {value : α} (takes : reader.Takes text value)
    (start : List (String × α)) (key : String) :
    Reader.Takes (gather reader start key) (':' :: text) ((key, value) :: start) := by
  intro rest follow
  simp [gather, readAfterColon, dropBlanks, isBlank, takes follow, bind, Except.bind]

theorem gathers_gather {reader : Reader α} {value : β → α}
    (takes : ∀ entry ∈ entries, reader.Takes (write entry.2) (value entry.2)) (start : List (String × α)) :
    Gathers (gather reader) start (writeEntries write entries)
      ((entries.map fun entry => (entry.1, value entry.2)).reverse ++ start) := by
  induction entries generalizing start with
  | nil => exact .nil
  | cons entry entries ih =>
    obtain ⟨first, takes⟩ := List.forall_mem_cons.mp takes
    have more := ih takes ((entry.1, value entry.2) :: start)
    simpa [writeEntries] using Gathers.cons (takes_gather first start entry.1) more

theorem readValue_brace {care : Care} {text : List Char} : readValue care limit (budget + 1) ('\x7b' :: text) =
    (readMembers care limit (gather (readValue care limit budget)) [] text).map fun (members, rest) =>
      (.object members.reverse, rest) := by
  change (readMembers care limit (gather (readValue care limit budget)) [] text >>= _) = _
  cases readMembers care limit (gather (readValue care limit budget)) [] text <;> rfl

/-- A written object spells its JSON value. -/
theorem readValue_writeObject
    (takes : ∀ entry ∈ entries, Reader.Takes (readValue .exact limit budget) (write entry.2) (value entry.2))
    (enough : (writeObject (writeEntries write entries)).length ≤ limit) :
    readValue .exact limit (budget + 1) (writeObject (writeEntries write entries) ++ rest) =
      .ok (.object (entries.map fun entry => (entry.1, value entry.2)), rest) := by
  rw [writeObject_append, readValue_brace, readMembers_writeObject (gathers_gather takes []) enough]
  simp [Except.map]

end Objects

end Json

/-! ## Requests -/

namespace Request

/-- The tag of a request and its fields. -/
def entries (request : Request) : List (String × FieldValue) := (tagKey, .text request.name) :: request.members

/-- The JSON value of a request: an object that starts with the tag. -/
def toJson (request : Request) : Json := .object (request.entries.map fun entry => (entry.1, entry.2.toJson))

theorem written_eq (request : Request) :
    request.written = Json.writeObject (Json.writeEntries FieldValue.written request.entries) := rfl

theorem lays_toJson (request : Request) : request.Lays request.toJson := by
  have spelled : List.Forall₂ FieldValue.Spells request.values (request.values.map FieldValue.toJson) :=
    List.forall₂_map_right_iff.mpr (List.forall₂_same.mpr fun value _ => value.spells_toJson)
  have known : request.entries.map (fun entry => (entry.1, entry.2.toJson)) =
      request.knownMembers (request.values.map FieldValue.toJson) ++ [] := by
    simp [entries, members, knownMembers, FieldValue.toJson, List.zip_map_right]
  exact .object ⟨_, [], spelled, by simp, known ▸ .refl _⟩

theorem readValue_written {request : Request} (enough : request.written.length ≤ limit) :
    Json.readValue .exact limit (budget + 1) (request.written ++ rest) = .ok (request.toJson, rest) := by
  rw [written_eq] at enough ⊢
  apply Json.readValue_writeObject _ enough
  intro entry mem
  exact FieldValue.takes_written (Nat.le_trans (Json.length_le_writeEntries mem) enough)

/-- A written request is read back. -/
theorem takes_written {request : Request} (enough : request.written.length ≤ limit) :
    Reader.Takes (Request.read limit budget) request.written request := by
  intro rest _
  rw [read_eq_ofJson (readValue_written enough), request.lays_toJson.ofJson_eq]
  rfl

theorem startsValue_written (request : Request) : Json.StartsValue request.written :=
  ⟨'\x7b', _, rfl, by decide, by decide⟩

end Request

/-! ## Scripts -/

/-- Words in capitals, joined without a mark, as words in small letters joined by underscores. -/
def snakeCase : (name : List Char) → List Char
  | [] => []
  | first :: rest => first.toLower :: rest.flatMap fun c => if c.isUpper then ['_', c.toLower] else [c]

theorem RequestKind.snakeCase_title (kind : RequestKind) : snakeCase kind.title.toList = kind.name.toList := by
  cases kind <;> decide

namespace Script

/-- The JSON value of a script: an object with both keys. -/
def toJson (script : Script) : Json :=
  .object [("strings", .array (script.strings.map .string)), ("requests", .array (script.requests.map Request.toJson))]

theorem startsValue_writeString (value : String) : Json.StartsValue (Json.writeString value) :=
  ⟨'"', _, rfl, by decide, by decide⟩

theorem readList_writeArray {β : Type} {element : Reader α} {write : β → List Char} {value : β → α} {items : List β}
    (takes : ∀ item ∈ items, element.Takes (write item) (value item))
    (starts : ∀ item ∈ items, Json.StartsValue (write item))
    (enough : (Json.writeArray (items.map write)).length ≤ limit) :
    readList limit element (Json.writeArray (items.map write) ++ rest) = .ok (items.map value, rest) := by
  rw [Json.writeArray_append, readList, Json.dropBlanks_cons_of_notBlank (by decide)]
  exact Json.readElements_writeArray takes starts enough

theorem readStrings_written {strings : List String}
    (enough : (Json.writeArray (strings.map Json.writeString)).length ≤ limit) :
    readStrings limit (Json.writeArray (strings.map Json.writeString) ++ rest) = .ok (strings, rest) := by
  have read : readStrings limit (Json.writeArray (strings.map Json.writeString) ++ rest) =
      .ok (strings.map id, rest) := by
    apply readList_writeArray _ _ enough
    · intro value mem
      exact Json.takes_text (Nat.le_trans (Json.length_le_writeArray mem) enough)
    · intro value _
      exact startsValue_writeString value
  rw [read, List.map_id]

theorem readRequests_written {requests : List Request}
    (enough : (Json.writeArray (requests.map Request.written)).length ≤ limit) :
    readRequests limit (Json.writeArray (requests.map Request.written) ++ rest) = .ok (requests, rest) := by
  have read : readRequests limit (Json.writeArray (requests.map Request.written) ++ rest) =
      .ok (requests.map id, rest) := by
    apply readList_writeArray _ _ enough
    · intro request mem
      exact Request.takes_written (Nat.le_trans (Json.length_le_writeArray mem) enough)
    · intro request _
      exact request.startsValue_written
  rw [read, List.map_id]

/-- The members of a written script, each with its text and its JSON value. -/
def parts (script : Script) : List (String × List Char × Json) :=
  [("strings", Json.writeArray (script.strings.map Json.writeString), .array (script.strings.map .string)),
   ("requests", Json.writeArray (script.requests.map Request.written), .array (script.requests.map Request.toJson))]

theorem written_eq (script : Script) : script.written = Json.writeObject (Json.writeEntries Prod.fst script.parts) := rfl

theorem length_le_written (script : Script) {part : String × List Char × Json} (mem : part ∈ script.parts) :
    part.2.1.length ≤ script.written.length := by
  rw [written_eq]
  exact Json.length_le_writeEntries mem

theorem read_written {script : Script} (enough : script.written.length ≤ limit) :
    Script.read limit (script.written ++ rest) = .ok (script, rest) := by
  have strings : (Json.writeArray (script.strings.map Json.writeString)).length ≤ limit :=
    Nat.le_trans (script.length_le_written List.mem_cons_self) enough
  have requests : (Json.writeArray (script.requests.map Request.written)).length ≤ limit :=
    Nat.le_trans (script.length_le_written (List.mem_cons_of_mem _ List.mem_cons_self)) enough
  have first : Reader.Takes (readDraftMember limit {} "strings")
      (':' :: Json.writeArray (script.strings.map Json.writeString)) { strings := some script.strings } := by
    intro rest _
    simp [readDraftMember, Json.readAfterColon, Json.dropBlanks, Json.isBlank, readStrings_written strings, bind,
      Except.bind]
  have second : Reader.Takes (readDraftMember limit { strings := some script.strings } "requests")
      (':' :: Json.writeArray (script.requests.map Request.written))
      { strings := some script.strings, requests := some script.requests } := by
    intro rest _
    simp [readDraftMember, Json.readAfterColon, Json.dropBlanks, Json.isBlank, readRequests_written requests, bind,
      Except.bind]
  rw [written, Json.writeObject_append, Script.read, Json.dropBlanks_cons_of_notBlank (by decide)]
  simp only [Json.readMembers_writeObject (.cons first (.cons second .nil)) enough, Draft.finish, bind, Except.bind]
  rfl

theorem takes_part {script : Script} (enough : script.written.length ≤ limit) :
    ∀ part ∈ script.parts, Reader.Takes (Json.readValue .exact limit (budget + 2)) part.2.1 part.2.2 := by
  intro part mem rest _
  have fits := Nat.le_trans (script.length_le_written mem) enough
  simp only [parts, List.mem_cons, List.not_mem_nil, or_false] at mem
  -- The requests nest one level deeper than the strings.
  rcases mem with rfl | rfl
  · apply Json.readValue_writeArray _ _ fits
    · intro value mem
      exact Json.takes_string (Nat.le_trans (Json.length_le_writeArray mem) fits)
    · intro value _
      exact startsValue_writeString value
  · apply Json.readValue_writeArray _ _ fits
    · intro request mem rest _
      exact Request.readValue_written (Nat.le_trans (Json.length_le_writeArray mem) fits)
    · intro request _
      exact request.startsValue_written

/-- The text of a script spells its JSON value. -/
theorem readValue_written {script : Script} (enough : script.written.length ≤ limit) :
    Json.readValue .exact limit (budget + 3) (script.written ++ rest) = .ok (script.toJson, rest) := by
  rw [written_eq] at enough ⊢
  exact Json.readValue_writeObject (takes_part enough) enough

end Script

end MipsBackend
