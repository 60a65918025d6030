import RowMapper.Text.Hex

/-!
# Universally unique identifiers

Identifiers of 128 bits, written as 32 hexadecimal digits in five groups.
-/

namespace RowMapper

/-- An identifier of 128 bits. -/
structure Uuid where
  bits : BitVec 128
  deriving DecidableEq

namespace Uuid

/-- The identifier without a bit set. -/
def nil : Uuid := ⟨0⟩

/-- The identifier has no bit set. -/
def isNil (u : Uuid) : Bool := u == nil

/-- The identifier of version 4 made of random bits: six of them are fixed. -/
def random (bits : BitVec 128) : Uuid :=
  ⟨(bits &&& ~~~(0xf000#128 <<< 64) &&& ~~~(0xc000#128 <<< 48))
    ||| (0x4000#128 <<< 64) ||| (0x8000#128 <<< 48)⟩

/-- The identifier carries the mark of version 4. -/
def isVersion4 (u : Uuid) : Bool :=
  u.bits.extractLsb' 76 4 == 4#4 && u.bits.extractLsb' 62 2 == 2#2

/-- The digits in groups of 8, 4, 4, 4 and 12, between hyphens. -/
def text (u : Uuid) : String :=
  let digits := Text.hexPadded 32 u.bits.toNat
  let group (start size : Nat) : String := String.ofList ((digits.drop start).take size)
  group 0 8 ++ "-" ++ group 8 4 ++ "-" ++ group 12 4 ++ "-" ++ group 16 4 ++ "-" ++ group 20 12

/-- Reads an identifier as it is written, with digits of either case. -/
def read? (s : String) : Option Uuid := do
  let groups := s.splitOn "-"
  if groups.map String.length = [8, 4, 4, 4, 12] then
    let n ← Text.readHex (groups.flatMap String.toList)
    pure ⟨BitVec.ofNat 128 n⟩
  else none

end Uuid

end RowMapper
