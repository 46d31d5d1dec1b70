import MipsBackend.Json.Reader
import MipsBackend.Script.Request

/-! # Reading scripts

A script is an object with `requests` and optional `strings`, or a list of the two. A request is an
object tagged by `op`, its fields in any order among members that do not matter, or a list that
starts with the tag and holds the fields in their order.
-/

namespace MipsBackend

namespace FieldType

/-- The value of a field in JSON, if it is of the right type and size. -/
def ofJson? : FieldType → Json → Option FieldValue
  | text, .string value => some (.text value)
  | integer, .number numeral =>
    match numeral.integer? with
    | some value =>
      if Int64.minValue.toInt ≤ value && value ≤ Int64.maxValue.toInt then
        some (.integer (Int64.ofInt value))
      else none
    | none => none
  | count, .number numeral =>
    match numeral.integer? with
    | some (.ofNat value) => if value < UInt64.size then some (.count (UInt64.ofNat value)) else none
    | _ => none
  | _, _ => none

end FieldType

namespace Request

def tagKey : String := "op"

/-- The request of a kind with the given values, or a fault of shape. -/
def assemble (kind : RequestKind) (values : Option (List FieldValue)) : Except ReadFault Request :=
  match values.bind (ofValues? kind) with
  | some request => .ok request
  | none => .error .misshapen

/-- The value of a field that stands exactly once among the members. -/
def field? (members : List (String × Json)) (field : String × FieldType) : Option FieldValue :=
  match members.filter fun member => member.1 == field.1 with
  | [member] => field.2.ofJson? member.2
  | _ => none

/-- The request of a kind whose fields stand among members in any order. -/
def ofMembers (kind : RequestKind) (members : List (String × Json)) : Except ReadFault Request :=
  assemble kind (kind.fields.mapM (field? members))

/-- The values of fields given in their order, one element for each. -/
def positional? : List (String × FieldType) → List Json → Option (List FieldValue)
  | [], [] => some []
  | field :: fields, element :: elements => do
    let value ← field.2.ofJson? element
    let values ← positional? fields elements
    some (value :: values)
  | _, _ => none

/-- The request of a kind whose fields are the elements, in order. -/
def ofElements (kind : RequestKind) (elements : List Json) : Except ReadFault Request :=
  assemble kind (positional? kind.fields elements)

def kindOfTag (tag : String) : Except ReadFault RequestKind :=
  match RequestKind.ofName? tag with
  | some kind => .ok kind
  | none => .error .misshapen

/-- What is known of a request object so far: its tag, and the other members, last one first. -/
structure Draft where
  kind : Option RequestKind := none
  members : List (String × Json) := []

namespace Draft

/-- The draft with the tag, which has to be a text and may stand once. -/
def addTag (draft : Draft) (value : Json) : Except ReadFault Draft :=
  match draft.kind, value with
  | none, .string tag => do
    let kind ← kindOfTag tag
    .ok { draft with kind := some kind }
  | _, _ => .error .misshapen

def add (draft : Draft) (member : String × Json) : Except ReadFault Draft :=
  if member.1 = tagKey then draft.addTag member.2
  else .ok { draft with members := member :: draft.members }

def finish (draft : Draft) : Except ReadFault Request :=
  match draft.kind with
  | none => .error .misshapen
  | some kind => ofMembers kind draft.members.reverse

end Draft

def ofJson : Json → Except ReadFault Request
  | .object members => do
    let draft ← members.foldlM Draft.add {}
    draft.finish
  | .array (.string tag :: elements) => do
    let kind ← kindOfTag tag
    ofElements kind elements
  | _ => .error .misshapen

/-- Reads the value of a member of a request object; a tag has to be a text. -/
def readMemberValue (limit budget : Nat) (key : String) : Reader Json := fun text =>
  if key = tagKey then do
    let (tag, rest) ← Json.readText limit text
    .ok (.string tag, rest)
  else Json.readValue .exact limit budget text

/-- Reads a member of a request object from its colon on. A second tag is refused at once. -/
def readDraftMember (limit budget : Nat) (draft : Draft) (key : String) : Reader Draft := fun text =>
  if key = tagKey && draft.kind.isSome then .error .misshapen
  else do
    let (value, rest) ← Json.readAfterColon (readMemberValue limit budget key) text
    let draft ← draft.add (key, value)
    .ok (draft, rest)

/-- Reads a request in which at most `budget` further brackets are open at once. -/
def read (limit budget : Nat) : Reader Request := fun text =>
  match Json.dropBlanks text with
  | '\x7b' :: rest => do
    let (draft, rest) ← Json.readMembers .exact limit (readDraftMember limit budget) {} rest
    let request ← draft.finish
    .ok (request, rest)
  | '[' :: rest =>
    match Json.dropBlanks rest with
    | [] => .error .truncated
    | ']' :: _ => .error .misshapen
    | text => do
      let (tag, rest) ← Json.readText limit text
      let kind ← kindOfTag tag
      let (elements, rest) ← Json.readMoreElements (Json.readValue .exact limit budget) limit rest
      let request ← ofElements kind elements
      .ok (request, rest)
  | text => Json.refuseValue limit text

end Request

namespace Script

/-- How many brackets may be open at once in a script. -/
def nestingLimit : Nat := 127

/-- How many brackets may be open inside a request of the list of requests. -/
def requestBudget : Nat := nestingLimit - 3

/-- Reads a list, or refuses any other value. -/
def readList {α : Type} (limit : Nat) (element : Reader α) : Reader (List α) := fun text =>
  match Json.dropBlanks text with
  | '[' :: rest => Json.readElements element limit rest
  | text => Json.refuseValue limit text

def readStrings (limit : Nat) : Reader (List String) := readList limit (Json.readText limit)

def readRequests (limit : Nat) : Reader (List Request) :=
  readList limit (Request.read limit requestBudget)

/-- What is known of a script object so far. -/
structure Draft where
  strings : Option (List String) := none
  requests : Option (List Request) := none

/-- The script of a finished draft; without string literals if none were given. -/
def Draft.finish (draft : Draft) : Except ReadFault Script :=
  match draft.requests with
  | none => .error .misshapen
  | some requests => .ok ⟨draft.strings.getD [], requests⟩

/-- Reads a member of a script object from its colon on. A known key may stand once; the value of
any other key is skipped. -/
def readDraftMember (limit : Nat) (draft : Draft) (key : String) : Reader Draft := fun text =>
  if key = "strings" then
    if draft.strings.isSome then .error .misshapen
    else do
      let (strings, rest) ← Json.readAfterColon (readStrings limit) text
      .ok ({ draft with strings := some strings }, rest)
  else if key = "requests" then
    if draft.requests.isSome then .error .misshapen
    else do
      let (requests, rest) ← Json.readAfterColon (readRequests limit) text
      .ok ({ draft with requests := some requests }, rest)
  else do
    let (_, rest) ← Json.readAfterColon (Json.readValue .loose limit limit) text
    .ok (draft, rest)

/-- Reads the second element of a script written as a list, and the end of the list. -/
def readSecond (limit : Nat) (strings : List String) : Reader Script := fun text =>
  match Json.dropBlanks text with
  | [] => .error .truncated
  | ']' :: _ => .error .misshapen
  | ',' :: rest =>
    match Json.dropBlanks rest with
    | [] => .error .truncated
    | ']' :: _ => .error .malformed
    | text => do
      let (requests, rest) ← readRequests limit text
      match Json.dropBlanks rest with
      | [] => .error .truncated
      | ']' :: rest => .ok (⟨strings, requests⟩, rest)
      | _ => .error .malformed
  | _ => .error .malformed

def read (limit : Nat) : Reader Script := fun text =>
  match Json.dropBlanks text with
  | '\x7b' :: rest => do
    let (draft, rest) ← Json.readMembers .exact limit (readDraftMember limit) {} rest
    let script ← draft.finish
    .ok (script, rest)
  | '[' :: rest =>
    match Json.dropBlanks rest with
    | [] => .error .truncated
    | ']' :: _ => .error .misshapen
    | text => do
      let (strings, rest) ← readStrings limit text
      readSecond limit strings rest
  | text => Json.refuseValue limit text

/-- The script a text spells; nothing but blanks may follow it. -/
def parseChars (text : List Char) : Except ReadFault Script := do
  let (script, rest) ← read text.length text
  match Json.dropBlanks rest with
  | [] => .ok script
  | _ => .error .malformed

def parse (text : String) : Except ReadFault Script := parseChars text.toList

end Script

end MipsBackend
