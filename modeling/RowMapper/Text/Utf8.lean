/-!
# UTF-8

Bytes read as characters. Where the bytes form no character, the longest beginning of one that
they do form counts as one error.
-/

namespace RowMapper.Text

/-- How a character goes on behind its first byte: the bits of the first byte, the number of
bytes that follow, and the bounds of the first of them. -/
structure Utf8Lead where
  bits : Nat
  count : Nat
  low : Nat
  high : Nat

/-- How a character with this first byte goes on; none if no character starts so. -/
def utf8Lead? (byte : Nat) : Option Utf8Lead :=
  if byte < 0x80 then some ⟨byte, 0, 0, 0⟩
  else if byte < 0xc2 then none
  else if byte < 0xe0 then some ⟨byte - 0xc0, 1, 0x80, 0xbf⟩
  else if byte = 0xe0 then some ⟨0, 2, 0xa0, 0xbf⟩
  else if byte = 0xed then some ⟨0xd, 2, 0x80, 0x9f⟩
  else if byte < 0xf0 then some ⟨byte - 0xe0, 2, 0x80, 0xbf⟩
  else if byte = 0xf0 then some ⟨0, 3, 0x90, 0xbf⟩
  else if byte < 0xf4 then some ⟨byte - 0xf0, 3, 0x80, 0xbf⟩
  else if byte = 0xf4 then some ⟨4, 3, 0x80, 0x8f⟩
  else none

/-- Reads the bytes that follow the first one: the code point, or none if they break off, and
the bytes behind them. -/
def utf8Tail (bits low high : Nat) : Nat → List UInt8 → Option Nat × List UInt8
  | 0, rest => (some bits, rest)
  | _ + 1, [] => (none, [])
  | count + 1, byte :: rest =>
    if low ≤ byte.toNat ∧ byte.toNat ≤ high then
      utf8Tail (bits * 64 + (byte.toNat - 0x80)) 0x80 0xbf count rest
    else (none, byte :: rest)

/-- Nothing is added to the bytes. -/
theorem length_utf8Tail_le (bits low high count : Nat) (bytes : List UInt8) :
    (utf8Tail bits low high count bytes).2.length ≤ bytes.length := by
  induction count generalizing bits low high bytes with
  | zero => simp [utf8Tail]
  | succ count ih =>
    cases bytes with
    | nil => simp [utf8Tail]
    | cons byte rest =>
      simp only [utf8Tail]
      split
      · exact Nat.le_succ_of_le (ih ..)
      · simp

/-- The characters of the bytes, and nothing in the place of an error. -/
def utf8Read : List UInt8 → List (Option Char)
  | [] => []
  | byte :: rest =>
    match utf8Lead? byte.toNat with
    | none => none :: utf8Read rest
    | some lead =>
      let tail := utf8Tail lead.bits lead.low lead.high lead.count rest
      tail.1.map Char.ofNat :: utf8Read tail.2
termination_by bytes => bytes.length
decreasing_by
  · simp
  · exact Nat.lt_succ_of_le (length_utf8Tail_le ..)

/-- The text of the bytes, if they have no error. -/
def ofUtf8? (bytes : List UInt8) : Option String :=
  ((utf8Read bytes).mapM id).map String.ofList

/-- The text of the bytes with a replacement character in the place of each error. -/
def ofUtf8Lossy (bytes : List UInt8) : String :=
  String.ofList ((utf8Read bytes).map (·.getD (Char.ofNat 0xfffd)))

/-- The bytes of a text. -/
def toUtf8 (s : String) : List UInt8 := s.toList.flatMap String.utf8EncodeChar

end RowMapper.Text
