/-!
# Binary floating point

Numbers of the two interchange formats with 32 and 64 bits, kept as their bits. They are
compared, widened and written, never computed with: a number is its class, and a finite one is
a mantissa times a power of two.
-/

namespace RowMapper

-- a power is the one that is computed, whatever else is in scope
attribute [local instance (high)] instPowNat

/-- The widths of the fraction and of the exponent of an interchange format. -/
structure BinaryFormat where
  fractionBits : Nat
  exponentBits : Nat
  deriving Repr, DecidableEq

namespace BinaryFormat

/-- Single precision. -/
def single : BinaryFormat := ⟨23, 8⟩

/-- Double precision. -/
def double : BinaryFormat := ⟨52, 11⟩

/-- The exponent of one is written as this number. -/
def bias (f : BinaryFormat) : Nat := 2 ^ (f.exponentBits - 1) - 1

/-- The exponent that marks infinities and what is no number. -/
def topExponent (f : BinaryFormat) : Nat := 2 ^ f.exponentBits - 1

end BinaryFormat

/-- What the bits of a number stand for: a finite one is `mantissa * 2 ^ exponent`. -/
inductive BinaryClass where
  | nan
  | infinite (negative : Bool)
  | finite (negative : Bool) (mantissa : Nat) (exponent : Int)
  deriving Repr, DecidableEq

/-- The class of the bits, read from the highest to the lowest as sign, exponent, fraction. -/
def BinaryFormat.classify (f : BinaryFormat) (bits : Nat) : BinaryClass :=
  let fraction := bits % 2 ^ f.fractionBits
  let exponent := bits / 2 ^ f.fractionBits % 2 ^ f.exponentBits
  let negative := bits / 2 ^ (f.fractionBits + f.exponentBits) % 2 == 1
  if exponent = f.topExponent then
    if fraction = 0 then .infinite negative else .nan
  else if exponent = 0 then
    .finite negative fraction (1 - (f.bias : Int) - f.fractionBits)
  else
    .finite negative (2 ^ f.fractionBits + fraction) (exponent - (f.bias : Int) - f.fractionBits)

/-- Equality of numbers: what is no number equals nothing, and zero has no sign. -/
def BinaryClass.equal : BinaryClass → BinaryClass → Bool
  | .infinite s, .infinite t => s == t
  | .finite s m e, .finite t n d => (m == 0 && n == 0) || (s == t && m == n && e == d)
  | _, _ => false

/-- A number of 32 bits. -/
structure Binary32 where
  bits : UInt32
  deriving Repr, DecidableEq

/-- A number of 64 bits. -/
structure Binary64 where
  bits : UInt64
  deriving Repr, DecidableEq

/-- What the number stands for. -/
def Binary32.classify (x : Binary32) : BinaryClass := BinaryFormat.single.classify x.bits.toNat

/-- What the number stands for. -/
def Binary64.classify (x : Binary64) : BinaryClass := BinaryFormat.double.classify x.bits.toNat

/-- Numeric equality, under which what is no number differs from itself. -/
def Binary32.equal (x y : Binary32) : Bool := x.classify.equal y.classify

/-- Numeric equality, under which what is no number differs from itself. -/
def Binary64.equal (x y : Binary64) : Bool := x.classify.equal y.classify

/-- The bits of a number in double precision whose class comes from single precision, where
every such number is exact. -/
def doubleBits : BinaryClass → Nat
  | .nan => f.topExponent * 2 ^ f.fractionBits + 2 ^ (f.fractionBits - 1)
  | .infinite negative => signBit negative + f.topExponent * 2 ^ f.fractionBits
  | .finite negative mantissa exponent =>
    if mantissa = 0 then signBit negative
    else
      let top := mantissa.log2
      let written := (exponent + top + f.bias).toNat
      signBit negative + written * 2 ^ f.fractionBits
        + (mantissa - 2 ^ top) * 2 ^ (f.fractionBits - top)
where
  f : BinaryFormat := .double
  /-- The bit of the sign, above all others. -/
  signBit (negative : Bool) : Nat := if negative then 2 ^ (f.fractionBits + f.exponentBits) else 0

/-- The same number with 64 bits. -/
def Binary32.widen (x : Binary32) : Binary64 := ⟨UInt64.ofNat (doubleBits x.classify)⟩

end RowMapper
