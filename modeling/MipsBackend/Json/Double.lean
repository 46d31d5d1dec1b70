/-! # Rounding to double precision

Natural numbers as double precision arithmetic sees them: kept to 53 significant bits, and beyond
every finite number from `2 ^ 1024` on. The main statement says that numbers of at most 53 bits are
kept as they are.
-/

namespace MipsBackend.Double

/-- How many significant bits a number keeps. -/
def precision : Nat := 53

/-- The least power of two beyond every finite number. -/
def infinity : Nat := Nat.pow 2 1024

/-- The quotient rounded to the nearest whole number; halfway goes to the even one. -/
def roundedQuotient (value unit : Nat) : Nat :=
  let quotient := value / unit
  match compare (2 * (value % unit)) unit with
  | .lt => quotient
  | .eq => quotient + quotient % 2
  | .gt => quotient + 1

/-- The nearest number with 53 significant bits. -/
def round (value : Nat) : Nat :=
  let unit := Nat.pow 2 (value.log2 + 1 - precision)
  roundedQuotient value unit * unit

theorem roundedQuotient_one (value : Nat) : roundedQuotient value 1 = value := by
  simp [roundedQuotient, Nat.mod_one, Nat.compare_eq_ite_lt]

/-- A number of at most 53 bits is kept as it is. -/
theorem round_of_log2_lt {value : Nat} (h : value.log2 < precision) : round value = value := by
  have unit : value.log2 + 1 - precision = 0 := by omega
  simp [round, unit, roundedQuotient_one]

/-- The product of two numbers, each rounded first, in double precision. -/
def product (left right : Nat) : Nat := round (round left * round right)

end MipsBackend.Double
