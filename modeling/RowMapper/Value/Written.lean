import RowMapper.Text.Digits
import RowMapper.Text.Hex
import RowMapper.Value.Basic

/-!
# Written values

The text that stands for a datum outside of SQL, and the datum that a text stands for. Integers
are written in decimal, floating point numbers by the hexadecimal digits of their bits, bytes by
two hexadecimal digits each.
-/

namespace RowMapper

/-- The bits of a number that is none, whatever its bits are. -/
def writtenBits (digits bits : Nat) (c : BinaryClass) : String :=
  if c == .nan then "NaN" else String.ofList (Text.hexPadded digits bits)

/-- The bits that hexadecimal digits stand for. -/
def readBits (nan : Nat) (s : String) : Option Nat :=
  if s == "NaN" then some nan else Text.readHex s.toList

/-- The integer that decimal digits stand for, perhaps behind a minus sign. -/
def readInteger (s : String) : Option Int :=
  match s.toList with
  | '-' :: digits => (Text.readDigits digits).map fun n => -n
  | digits => (Text.readDigits digits).map fun n => n

namespace Datum

/-- The text of the datum. -/
def written : Datum → String
  | .boolean b => toString b
  | .int16 n => toString n.toInt
  | .int32 n => toString n.toInt
  | .int64 n => toString n.toInt
  | .float32 x => writtenBits 8 x.bits.toNat x.classify
  | .float64 x => writtenBits 16 x.bits.toNat x.classify
  | .decimal d => d.text
  | .varchar s => s
  | .blob bytes => String.ofList (Text.writeHexBytes bytes)
  | .date d => d.text
  | .timestamp t => t.text
  | .uuid u => u.text

/-- The datum of a kind that the text stands for. -/
def read? (kind : Kind) (s : String) : Option Datum :=
  match kind with
  | .boolean =>
    match s with
    | "true" => some (.boolean true)
    | "false" => some (.boolean false)
    | _ => none
  | .int16 => (readInteger s).map fun n => .int16 (Int16.ofInt n)
  | .int32 => (readInteger s).map fun n => .int32 (Int32.ofInt n)
  | .int64 => (readInteger s).map fun n => .int64 (Int64.ofInt n)
  | .float32 => (readBits 0x7fc00000 s).map fun n => .float32 ⟨UInt32.ofNat n⟩
  | .float64 => (readBits 0x7ff8000000000000 s).map fun n => .float64 ⟨UInt64.ofNat n⟩
  | .decimal => (Decimal.read? s).map .decimal
  | .varchar => some (.varchar s)
  | .blob => (Text.readHexBytes s.toList).map .blob
  | .date => (Date.read? s).map .date
  | .timestamp => (Timestamp.read? s).map .timestamp
  | .uuid => (Uuid.read? s).map .uuid

end Datum

end RowMapper
