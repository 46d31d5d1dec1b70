import MipsBackend.Json.Value

/-! # Reading JSON

Readers take a value off the front of a text, or report the first fault in it. Three kinds of
fault are told apart: the text ends too early, it is not JSON, or it is JSON of the wrong shape.

Readers of nested values carry a `budget`, the number of brackets that may still be opened.
`limit` bounds the elements of one list, the members of one object and the characters of one
string: the length of the whole text is always enough.

A value that nobody asks for is read loosely: escapes need not spell characters, and numbers may be
of any size.
-/

namespace MipsBackend

inductive ReadFault
  | truncated
  | malformed
  /-- The text is JSON of the wrong shape. -/
  | misshapen
deriving DecidableEq

/-- Takes an `α` off the front of a text. -/
abbrev Reader (α : Type) : Type := List Char → Except ReadFault (α × List Char)

inductive Care
  | exact | loose
deriving DecidableEq

namespace Json

/-- Characters that may stand between the parts of a JSON text. -/
def isBlank (c : Char) : Bool := c == ' ' || c == '\t' || c == '\n' || c == '\r'

def dropBlanks (text : List Char) : List Char := text.dropWhile isBlank

def readLetters : (letters : List Char) → Reader Unit
  | [], text => .ok ((), text)
  | _ :: _, [] => .error .truncated
  | letter :: letters, c :: text => if c = letter then readLetters letters text else .error .malformed

/-! ## Numbers -/

/-- The fault of a number that stops before a digit it needs. -/
def missingDigit (care : Care) (text : List Char) : ReadFault :=
  match care, text with
  | .exact, [] => .truncated
  | _, _ => .malformed

def readDigits (care : Care) : Reader (List Char) := fun text =>
  match text.takeWhile Char.isDigit with
  | [] => .error (missingDigit care text)
  | digits => .ok (digits, text.dropWhile Char.isDigit)

/-- Reads the digits before the point, where only a lone zero starts with zero. -/
def readWhole (care : Care) : Reader (List Char) := fun text => do
  let (digits, rest) ← readDigits care text
  match digits with
  | '0' :: _ :: _ => .error .malformed
  | _ => .ok (digits, rest)

/-- Reads the point and the digits after it, if they are there. -/
def readFraction (care : Care) : Reader (Option (List Char))
  | '.' :: text => do
    let (digits, rest) ← readDigits care text
    .ok (some digits, rest)
  | text => .ok (none, text)

/-- Reads a sign; `true` for a minus. -/
def readSign : List Char → Bool × List Char
  | '+' :: text => (false, text)
  | '-' :: text => (true, text)
  | text => (false, text)

def readExponent (care : Care) : Reader (Option (Bool × List Char)) := fun text =>
  match text with
  | 'e' :: rest | 'E' :: rest => do
    let (negative, rest) := readSign rest
    let (digits, rest) ← readDigits care rest
    .ok (some (negative, digits), rest)
  | text => .ok (none, text)

def readNumeral (care : Care) (negative : Bool) : Reader Numeral := fun text => do
  let (whole, text) ← readWhole care text
  let (fraction, text) ← readFraction care text
  let (exponent, text) ← readExponent care text
  let numeral : Numeral := ⟨negative, whole, fraction, exponent⟩
  if care = .exact && numeral.isTooLarge then .error .malformed else .ok (numeral, text)

/-! ## Strings -/

def hexValue? (c : Char) : Option Nat :=
  if '0' ≤ c && c ≤ '9' then some (c.toNat - '0'.toNat)
  else if 'a' ≤ c && c ≤ 'f' then some (c.toNat - 'a'.toNat + 10)
  else if 'A' ≤ c && c ≤ 'F' then some (c.toNat - 'A'.toNat + 10)
  else none

def byteSize : (text : List Char) → Nat
  | [] => 0
  | c :: rest => c.utf8Size + byteSize rest

/-- Reads four hexadecimal digits. The text ends too early if fewer than four bytes are left. -/
def readHex : Reader Nat := fun text =>
  if byteSize (text.take 4) < 4 then .error .truncated
  else
    match text with
    | a :: b :: c :: d :: rest =>
      match hexValue? a, hexValue? b, hexValue? c, hexValue? d with
      | some a, some b, some c, some d => .ok (((a * 16 + b) * 16 + c) * 16 + d, rest)
      | _, _, _, _ => .error .malformed
    | _ => .error .malformed

def isHighHalf (unit : Nat) : Bool := 0xd800 ≤ unit && unit ≤ 0xdbff

def isLowHalf (unit : Nat) : Bool := 0xdc00 ≤ unit && unit ≤ 0xdfff

/-- The character a pair of halves stands for. -/
def joinHalves (high low : Nat) : Char := Char.ofNat (0x10000 + (high - 0xd800) * 0x400 + (low - 0xdc00))

/-- Reads the second half of a pair whose first half was read. -/
def readLowHalf (high : Nat) : Reader Char
  | [] => .error .truncated
  | ['\\'] => .error .truncated
  | '\\' :: 'u' :: text => do
    let (low, rest) ← readHex text
    if isLowHalf low then .ok (joinHalves high low, rest) else .error .malformed
  | _ => .error .malformed

/-- Reads a character spelled by its code units. -/
def readCodePoint (care : Care) : Reader Char := fun text => do
  let (unit, rest) ← readHex text
  if care = .loose then .ok (Char.ofNat unit, rest)
  else if isLowHalf unit then .error .malformed
  else if isHighHalf unit then readLowHalf unit rest
  else .ok (Char.ofNat unit, rest)

def readEscape (care : Care) : Reader Char
  | [] => .error .truncated
  | '"' :: rest => .ok ('"', rest)
  | '\\' :: rest => .ok ('\\', rest)
  | '/' :: rest => .ok ('/', rest)
  | 'b' :: rest => .ok ('\x08', rest)
  | 'f' :: rest => .ok ('\x0c', rest)
  | 'n' :: rest => .ok ('\n', rest)
  | 'r' :: rest => .ok ('\r', rest)
  | 't' :: rest => .ok ('\t', rest)
  | 'u' :: rest => readCodePoint care rest
  | _ => .error .malformed

/-- Reads the characters of a string up to its closing quote. -/
def readChars (care : Care) : (limit : Nat) → Reader (List Char)
  | _, [] => .error .truncated
  | _, '"' :: rest => .ok ([], rest)
  | 0, _ => .error .malformed
  | limit + 1, '\\' :: rest => do
    let (c, rest) ← readEscape care rest
    let (cs, rest) ← readChars care limit rest
    .ok (c :: cs, rest)
  | limit + 1, c :: rest =>
    if c.toNat < 0x20 then .error .malformed
    else do
      let (cs, rest) ← readChars care limit rest
      .ok (c :: cs, rest)

def readString (care : Care) (limit : Nat) : Reader String := fun text => do
  let (cs, rest) ← readChars care limit text
  .ok (String.ofList cs, rest)

/-! ## Lists and objects -/

/-- Reads the elements that follow another one, up to the closing bracket. -/
def readMoreElements {α : Type} (element : Reader α) : (limit : Nat) → Reader (List α)
  | limit, text =>
    match dropBlanks text with
    | [] => .error .truncated
    | ']' :: rest => .ok ([], rest)
    | ',' :: rest =>
      match limit, dropBlanks rest with
      | _, [] => .error .truncated
      | _, ']' :: _ => .error .malformed
      | 0, _ => .error .malformed
      | limit + 1, rest => do
        let (first, rest) ← element rest
        let (others, rest) ← readMoreElements element limit rest
        .ok (first :: others, rest)
    | _ => .error .malformed

/-- Reads the elements of a list after its opening bracket. -/
def readElements {α : Type} (element : Reader α) (limit : Nat) : Reader (List α) := fun text =>
  match dropBlanks text with
  | [] => .error .truncated
  | ']' :: rest => .ok ([], rest)
  | text => do
    let (first, rest) ← element text
    let (others, rest) ← readMoreElements element limit rest
    .ok (first :: others, rest)

def readKey (care : Care) (limit : Nat) : Reader String := fun text =>
  match dropBlanks text with
  | [] => .error .truncated
  | '"' :: rest => readString care limit rest
  | _ => .error .malformed

/-- Reads the colon of a member and then its value. -/
def readAfterColon {α : Type} (value : Reader α) : Reader α := fun text =>
  match dropBlanks text with
  | [] => .error .truncated
  | ':' :: rest => value rest
  | _ => .error .malformed

/-- Reads the members that follow another one, up to the closing brace. A member updates what was
gathered so far; `member` reads it from the colon on. -/
def readMoreMembers {σ : Type} (care : Care) (keyLimit : Nat) (member : σ → String → Reader σ) :
    (limit : Nat) → (gathered : σ) → Reader σ
  | limit, gathered, text =>
    match dropBlanks text with
    | [] => .error .truncated
    | '\x7d' :: rest => .ok (gathered, rest)
    | ',' :: rest =>
      match limit with
      | 0 => .error .malformed
      | limit + 1 => do
        let (key, rest) ← readKey care keyLimit rest
        let (gathered, rest) ← member gathered key rest
        readMoreMembers care keyLimit member limit gathered rest
    | _ => .error .malformed

/-- Reads the members of an object after its opening brace. -/
def readMembers {σ : Type} (care : Care) (limit : Nat) (member : σ → String → Reader σ)
    (start : σ) : Reader σ := fun text =>
  match dropBlanks text with
  | [] => .error .truncated
  | '\x7d' :: rest => .ok (start, rest)
  | text => do
    let (key, rest) ← readKey care limit text
    let (gathered, rest) ← member start key rest
    readMoreMembers care limit member limit gathered rest

/-! ## Values -/

def readScalar (care : Care) (limit : Nat) : Reader Json := fun text =>
  match text with
  | [] => .error .truncated
  | 'n' :: rest => do
    let ((), rest) ← readLetters ['u', 'l', 'l'] rest
    .ok (.null, rest)
  | 't' :: rest => do
    let ((), rest) ← readLetters ['r', 'u', 'e'] rest
    .ok (.bool true, rest)
  | 'f' :: rest => do
    let ((), rest) ← readLetters ['a', 'l', 's', 'e'] rest
    .ok (.bool false, rest)
  | '"' :: rest => do
    let (value, rest) ← readString care limit rest
    .ok (.string value, rest)
  | '-' :: rest => do
    let (numeral, rest) ← readNumeral care true rest
    .ok (.number numeral, rest)
  | c :: rest =>
    if c.isDigit then do
      let (numeral, rest) ← readNumeral care false (c :: rest)
      .ok (.number numeral, rest)
    else .error .malformed

/-- Reads a value in which at most `budget` brackets are open at once. -/
def readValue (care : Care) (limit : Nat) : (budget : Nat) → Reader Json
  | 0, text => readScalar care limit (dropBlanks text)
  | budget + 1, text =>
    match dropBlanks text with
    | '[' :: rest => do
      let (elements, rest) ← readElements (readValue care limit budget) limit rest
      .ok (.array elements, rest)
    | '\x7b' :: rest => do
      let member := fun (members : List (String × Json)) key text => do
        let (value, rest) ← readAfterColon (readValue care limit budget) text
        .ok ((key, value) :: members, rest)
      let (members, rest) ← readMembers care limit member [] rest
      .ok (.object members.reverse, rest)
    | text => readScalar care limit text

/-- Refuses a value of a kind that does not fit here. A fault inside a scalar is found first. -/
def refuseValue {α : Type} (limit : Nat) : Reader α := fun text =>
  match dropBlanks text with
  | '[' :: _ | '\x7b' :: _ => .error .misshapen
  | text => do
    let _ ← readScalar .exact limit text
    .error .misshapen

/-- Reads a string, or refuses any other value. -/
def readText (limit : Nat) : Reader String := fun text =>
  match dropBlanks text with
  | '"' :: rest => readString .exact limit rest
  | text => refuseValue limit text

end Json

end MipsBackend
