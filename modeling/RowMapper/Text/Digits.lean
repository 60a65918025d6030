/-!
# Decimal digits

Numbers written in base ten to a fixed width, and read back.
-/

namespace RowMapper.Text

/-- The digit of a value below ten. -/
def digit (n : Nat) : Char := Char.ofNat ('0'.toNat + n)

/-- The character is one of the ten ASCII digits. -/
def isDigit (c : Char) : Bool := '0' ≤ c && c ≤ '9'

/-- The last `width` decimal digits of the number. -/
def padded : Nat → Nat → List Char
  | 0, _ => []
  | width + 1, n => padded width (n / 10) ++ [digit (n % 10)]

/-- The decimal digits of the number, at least `width` of them. -/
def atLeast (width n : Nat) : List Char :=
  let digits := (toString n).toList
  List.replicate (width - digits.length) '0' ++ digits

/-- The number the digits stand for, or none if there is no digit or another character. -/
def readDigits (cs : List Char) : Option Nat :=
  if cs.isEmpty then none
  else cs.foldl
    (fun acc c => acc.bind fun n =>
      if isDigit c then some (n * 10 + (c.toNat - '0'.toNat)) else none)
    (some 0)

/-- The digits without the zeros at their end. -/
def dropZeroEnd (cs : List Char) : List Char :=
  (cs.reverse.dropWhile (· == '0')).reverse

end RowMapper.Text
