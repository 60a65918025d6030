import RowMapper.Text.Digits

/-!
# Decimal numbers

A decimal is a coefficient of at most 96 bits with up to 28 decimal places. The places are kept:
1.0 and 1.00 are equal numbers with different texts. Zero has no sign.
-/

namespace RowMapper

-- a power is the one that is computed, whatever else is in scope
attribute [local instance (high)] instPowNat

/-- The bits of a coefficient, without its sign. -/
def Decimal.coefficientBits : Nat := 96

/-- The number `coefficient / 10 ^ scale`. -/
structure Decimal where
  coefficient : Int
  scale : Nat
  coefficient_lt : coefficient.natAbs < 2 ^ Decimal.coefficientBits
  scale_le : scale ≤ 28
  deriving DecidableEq

namespace Decimal

/-- The decimal with this coefficient and number of places, if they are within bounds. -/
def of? (coefficient : Int) (scale : Nat) : Option Decimal :=
  if h : coefficient.natAbs < 2 ^ coefficientBits ∧ scale ≤ 28 then some ⟨coefficient, scale, h.1, h.2⟩
  else none

/-- The decimal zero without places. -/
def zero : Decimal := ⟨0, 0, by decide, by decide⟩

/-- Numeric equality, whatever the numbers of places. -/
def equal (x y : Decimal) : Bool :=
  x.coefficient * 10 ^ y.scale == y.coefficient * 10 ^ x.scale

/-- The number with all its places, and a digit before the point. -/
def text (x : Decimal) : String :=
  let sign := if x.coefficient < 0 then "-" else ""
  let digits := Text.atLeast (x.scale + 1) x.coefficient.natAbs
  let whole := digits.take (digits.length - x.scale)
  let places := digits.drop (digits.length - x.scale)
  sign ++ String.ofList whole ++ (if x.scale = 0 then "" else "." ++ String.ofList places)

/-- Reads digits with an optional sign before them and an optional point between them. -/
def read? (s : String) : Option Decimal := do
  let (negative, cs) := match s.toList with
    | '-' :: rest => (true, rest)
    | cs => (false, cs)
  let whole := cs.takeWhile (· != '.')
  let places ← match cs.dropWhile (· != '.') with
    | [] => some []
    | [_] => none
    | _ :: places => some places
  let magnitude ← Text.readDigits (whole ++ places)
  of? (if negative then -(magnitude : Int) else magnitude) places.length

end Decimal

end RowMapper
