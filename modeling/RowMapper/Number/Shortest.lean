import RowMapper.Number.Binary
import RowMapper.Text.Digits

/-!
# Shortest decimal text

The text of a binary number holds the fewest decimal digits that read back as the same number,
and of those the nearest to it. Numbers from one ten thousandth up to below ten to the
sixteenth are written with a point, all others with an exponent.
-/

namespace RowMapper

-- a power is the one that is computed, whatever else is in scope
attribute [local instance (high)] instPowNat

/-- A positive decimal number: `digits * 10 ^ exponent`. -/
structure DecimalDigits where
  digits : Nat
  exponent : Int
  deriving Repr, DecidableEq

/-- The numbers between `low` and `high` over `scale`, the ends belonging to them or not, and
the number `value` over `scale` among them. -/
structure RoundingInterval where
  low : Nat
  value : Nat
  high : Nat
  scale : Nat
  closed : Bool
  deriving Repr

namespace RoundingInterval

/-- The reals that round to the number `mantissa * 2 ^ exponent`. The gap below is half as wide
when the mantissa is the least of its binade and a smaller binade of that width exists. -/
def ofBinary (mantissa : Nat) (exponent : Int) (narrowBelow : Bool) : RoundingInterval :=
  let low := if narrowBelow then 4 * mantissa - 1 else 4 * mantissa - 2
  let up := 2 ^ (exponent - 2).toNat
  let down := 2 ^ (2 - exponent).toNat
  ⟨low * up, 4 * mantissa * up, (4 * mantissa + 2) * up, down, mantissa % 2 == 0⟩

/-- The number `n * unit / per` lies in the interval. -/
def contains (i : RoundingInterval) (n unit per : Nat) : Bool :=
  let point := n * unit * i.scale
  if i.closed then i.low * per ≤ point && point ≤ i.high * per
  else i.low * per < point && point < i.high * per

/-- The neighbour of the value on the grid of multiples of `10 ^ exponent` that lies in the
interval, the nearer one if both do and the upper one if they are equally near. -/
def gridPoint (i : RoundingInterval) (exponent : Int) : Option Nat :=
  let unit := 10 ^ exponent.toNat
  let per := 10 ^ (-exponent).toNat
  let below := i.value * per / (unit * i.scale)
  let above := below + 1
  let down := 0 < below && i.contains below unit per
  let up := i.contains above unit per
  let value2 := 2 * i.value * per
  let middle := (below + above) * unit * i.scale
  if down && (!up || value2 < middle) then some below
  else if up then some above
  else none

/-- The first grid with a point in the interval, from the coarsest one on. -/
def search (i : RoundingInterval) : Nat → Int → Option DecimalDigits
  | 0, _ => none
  | fuel + 1, exponent =>
    match i.gridPoint exponent with
    | some digits => some ⟨digits, exponent⟩
    | none => i.search fuel (exponent - 1)

/-- An exponent at which the grid is coarser than the value. -/
def coarsest (i : RoundingInterval) : Int :=
  if i.scale ≤ i.value then ((toString (i.value / i.scale)).length : Int)
  else -(((toString (i.scale / i.value)).length : Int) - 2)

/-- The fewest digits in the interval. Seventeen digits suffice for every double; the search
starts a little above the first of them. -/
def shortest (i : RoundingInterval) : DecimalDigits :=
  (i.search 24 i.coarsest).getD ⟨0, 0⟩

end RoundingInterval

/-- The shortest digits of a positive number with this class in the format. -/
def BinaryFormat.shortestDigits (f : BinaryFormat) (mantissa : Nat) (exponent : Int) :
    DecimalDigits :=
  let narrow := mantissa == 2 ^ f.fractionBits && 1 - (f.bias : Int) - f.fractionBits < exponent
  (RoundingInterval.ofBinary mantissa exponent narrow).shortest

/-- How a positive decimal number is written. -/
structure DecimalStyle where
  /-- The least decimal exponent written with a point. -/
  leastPositional : Int
  /-- The least decimal exponent, above it, written with an exponent. -/
  leastScientific : Int
  deriving Repr

/-- Numbers are shown with a point from 0.0001 up to below 10000000000000000. -/
def shownNumbers : DecimalStyle := ⟨-4, 16⟩

/-- The digits written in the style; a number with a point has a digit on both of its sides. -/
def DecimalDigits.render (d : DecimalDigits) (style : DecimalStyle) : String :=
  let digits := Text.dropZeroEnd (toString d.digits).toList
  let leading := d.exponent + ((toString d.digits).length : Int) - 1
  if leading < style.leastPositional || style.leastScientific ≤ leading then
    let mantissa := match digits with
      | [] => ['0']
      | [c] => [c]
      | c :: rest => c :: '.' :: rest
    String.ofList mantissa ++ "e" ++ toString leading
  else if leading < 0 then
    "0." ++ String.ofList (List.replicate (-leading - 1).toNat '0' ++ digits)
  else
    let whole := leading.toNat + 1
    let front := digits.take whole
    let back := digits.drop whole
    String.ofList (front ++ List.replicate (whole - front.length) '0') ++ "."
      ++ (if back.isEmpty then "0" else String.ofList back)

/-- The text of a number of this class in the format. -/
def BinaryFormat.shown (f : BinaryFormat) : BinaryClass → String
  | .nan => "NaN"
  | .infinite negative => if negative then "-inf" else "inf"
  | .finite negative mantissa exponent =>
    (if negative then "-" else "") ++
      if mantissa = 0 then "0.0"
      else (f.shortestDigits mantissa exponent).render shownNumbers

/-- The shortest text that reads back as the number. -/
def Binary32.shown (x : Binary32) : String := BinaryFormat.single.shown x.classify

/-- The shortest text that reads back as the number. -/
def Binary64.shown (x : Binary64) : String := BinaryFormat.double.shown x.classify

end RowMapper
