import RowMapper.Text.Hex
import RowMapper.Text.Utf8

/-!
# Percent encoding

Each part of a URL has a set of ASCII characters that stand for themselves in it only when they
are percent encoded. Characters beyond ASCII are always encoded, byte by byte.
-/

namespace RowMapper.Url

/-- Controls, which are encoded everywhere. -/
def isControl (c : Char) : Bool := c.toNat < 0x20 || c.toNat = 0x7f

/-- Encoded in fragments. -/
def inFragmentSet (c : Char) : Bool :=
  isControl c || [' ', '"', '<', '>', (Char.ofNat 0x60)].contains c

/-- Encoded in paths. -/
def inPathSet (c : Char) : Bool := inFragmentSet c || ['#', '?', '\x7b', '\x7d'].contains c

/-- Encoded in user names and passwords. -/
def inUserSet (c : Char) : Bool :=
  inPathSet c || ['/', ':', ';', '=', '@', '[', '\\', ']', '^', '|'].contains c

/-- Encoded in queries. -/
def inQuerySet (c : Char) : Bool := isControl c || [' ', '"', '#', '<', '>'].contains c

/-- Encoded in the queries of special schemes. -/
def inSpecialQuerySet (c : Char) : Bool := inQuerySet c || c == '\''

/-- A byte, encoded. -/
def encodeByte (b : UInt8) : List Char :=
  '%' :: (Text.hexPadded 2 b.toNat).map Char.toUpper

/-- The characters, those of the set and those beyond ASCII encoded. -/
def percentEncode (set : Char → Bool) (cs : List Char) : List Char :=
  cs.flatMap fun c =>
    if c.toNat < 0x80 && !set c then [c] else (String.utf8EncodeChar c).flatMap encodeByte

/-- The bytes with each encoded byte decoded. A percent sign without two digits behind it stands
for itself. -/
def percentDecode : List UInt8 → List UInt8
  | [] => []
  | [a] => [a]
  | [a, b] => [a, b]
  | a :: b :: c :: rest =>
    match a.toNat == '%'.toNat, Text.hexValue? (Char.ofNat b.toNat),
      Text.hexValue? (Char.ofNat c.toNat) with
    | true, some high, some low => UInt8.ofNat (high * 16 + low) :: percentDecode rest
    | _, _, _ => a :: percentDecode (b :: c :: rest)

/-- The text that an encoded text stands for; the encoded text itself if the bytes are none. -/
def decoded (s : String) : String :=
  (Text.ofUtf8? (percentDecode (Text.toUtf8 s))).getD s

end RowMapper.Url
