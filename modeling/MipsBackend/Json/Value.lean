import MipsBackend.Json.Numeral

/-! # JSON values

The values of a JSON text, numbers as they were written.
-/

namespace MipsBackend

/-- A JSON value. Members of an object stand in the order of the text, repeated keys included. -/
inductive Json
  | null
  | bool (value : Bool)
  | number (numeral : Numeral)
  | string (value : String)
  | array (elements : List Json)
  | object (members : List (String × Json))

end MipsBackend
