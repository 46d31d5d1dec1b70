import MipsBackend.Json.Value

/-! # Writing JSON

Text of JSON strings and integers, in the shortest form: no blanks, and only the characters that
must be escaped are.
-/

namespace MipsBackend.Json

def hexDigit (value : Nat) : Char := Nat.digitChar value

/-- A character inside a JSON string. -/
def escapedChar (c : Char) : List Char :=
  match c with
  | '"' => ['\\', '"']
  | '\\' => ['\\', '\\']
  | '\x08' => ['\\', 'b']
  | '\x0c' => ['\\', 'f']
  | '\n' => ['\\', 'n']
  | '\r' => ['\\', 'r']
  | '\t' => ['\\', 't']
  | c =>
    if c.toNat < 0x20 then ['\\', 'u', '0', '0', hexDigit (c.toNat / 16), hexDigit (c.toNat % 16)]
    else [c]

def writeString (text : String) : List Char := '"' :: text.toList.flatMap escapedChar ++ ['"']

def writeInt (value : Int) : List Char :=
  if value < 0 then '-' :: Nat.toDigits 10 value.natAbs else Nat.toDigits 10 value.natAbs

def writeSeparated : (items : List (List Char)) → List Char
  | [] => []
  | [item] => item
  | item :: rest => item ++ ',' :: writeSeparated rest

/-- A JSON list of written elements. -/
def writeArray (elements : List (List Char)) : List Char := '[' :: writeSeparated elements ++ [']']

/-- A JSON object of members with written values. -/
def writeObject (members : List (String × List Char)) : List Char :=
  '\x7b' :: writeSeparated (members.map fun member => writeString member.1 ++ ':' :: member.2) ++ ['\x7d']

end MipsBackend.Json
