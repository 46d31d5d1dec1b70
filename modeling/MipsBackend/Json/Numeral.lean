import MipsBackend.Json.Double

/-! # Numbers as written

A number keeps its spelling, since a script tells integers from other numbers by it. Whether a
number is too large is decided in double precision: the leading digits that fit 64 bits are
multiplied by the power of ten that the point, the exponent and the digits left out call for.
-/

namespace MipsBackend

/-- A number as written: sign, digits, and the optional fraction and exponent. -/
structure Numeral where
  negative : Bool
  whole : List Char
  fraction : Option (List Char) := none
  exponent : Option (Bool × List Char) := none
deriving DecidableEq

namespace Numeral

def digitValue (digit : Char) : Nat := digit.toNat - '0'.toNat

def digitsValue (digits : List Char) : Nat := Nat.ofDigitChars 10 digits 0

/-- The integer a numeral spells. A fraction or an exponent makes it no integer, and a negative
zero is none either. -/
def integer? (numeral : Numeral) : Option Int :=
  match numeral.fraction, numeral.exponent, numeral.negative, digitsValue numeral.whole with
  | none, none, false, value => some value
  | none, none, true, value + 1 => some (Int.negSucc value)
  | _, _, _, _ => none

/-- Appends digits to a significand while it fits 64 bits. Gives the significand and the number of
digits left out: the first one that does not fit, and all that follow it. -/
def appendDigits : (significand : Nat) → (digits : List Char) → Nat × Nat
  | significand, [] => (significand, 0)
  | significand, digit :: digits =>
    let longer := significand * 10 + digitValue digit
    if longer < UInt64.size then appendDigits longer digits else (significand, digits.length + 1)

/-- Beyond this no text is long enough for its digits to bring the magnitude back into range. -/
def exponentLimit : Nat := 2147483648

/-- Size of an exponent, counted up to the limit. -/
def exponentSize (digits : List Char) : Nat :=
  digits.foldl (fun size digit => min (size * 10 + digitValue digit) exponentLimit) 0

/-- The written exponent; zero if there is none. -/
def exponentValue (numeral : Numeral) : Int :=
  match numeral.exponent with
  | none => 0
  | some (false, digits) => exponentSize digits
  | some (true, digits) => -(exponentSize digits : Int)

/-- The significand, and the power of ten it is multiplied by. -/
def scientific (numeral : Numeral) : Nat × Int :=
  let fraction := numeral.fraction.getD []
  let (whole, wholeLeft) := appendDigits 0 numeral.whole
  let (significand, fractionLeft) := appendDigits whole fraction
  (significand, wholeLeft - (fraction.length - fractionLeft : Nat) + numeral.exponentValue)

/-- The largest power of ten among the finite double precision numbers. -/
def largestPower : Nat := 308

/-- Whether double precision has no finite number for the numeral. -/
def isTooLarge (numeral : Numeral) : Bool :=
  match numeral.scientific with
  | (0, _) | (_, .negSucc _) => false
  | (significand, .ofNat power) =>
    largestPower < power || Double.infinity ≤ Double.product significand (Nat.pow 10 power)

def ofInt (value : Int) : Numeral := ⟨decide (value < 0), Nat.toDigits 10 value.natAbs, none, none⟩

end Numeral

end MipsBackend
