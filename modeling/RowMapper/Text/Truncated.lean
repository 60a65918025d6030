import RowMapper.Text.Blank

/-!
# Truncated text

A limit in bytes cuts a text between two characters: what remains is the longest beginning
of the text that fits. Statements are shown abridged, within five hundred bytes.
-/

namespace RowMapper.Text

/-- The number of bytes the characters take in UTF-8. -/
def byteCount : List Char → Nat
  | [] => 0
  | c :: rest => c.utf8Size + byteCount rest

/-- The longest beginning of the characters that takes at most `limit` bytes. -/
def fitting (limit : Nat) : List Char → List Char
  | [] => []
  | c :: rest => if c.utf8Size ≤ limit then c :: fitting (limit - c.utf8Size) rest else []

/-- The longest beginning of the text that takes at most `limit` bytes. -/
def truncate (s : String) (limit : Nat) : String :=
  String.ofList (fitting limit s.toList)

/-- The number of bytes of a statement that are shown. -/
def abridgedLimit : Nat := 497

/-- The beginning of the text without blanks at its end, with an ellipsis if bytes were cut. -/
def abridge (s : String) : String :=
  trimEnd (truncate s abridgedLimit) ++ (if s.utf8ByteSize > abridgedLimit then "..." else "")

/-- What fits keeps to the limit. -/
theorem byteCount_fitting_le (limit : Nat) (cs : List Char) :
    byteCount (fitting limit cs) ≤ limit := by
  induction cs generalizing limit with
  | nil => simp [fitting, byteCount]
  | cons c rest ih =>
    have h := ih (limit - c.utf8Size)
    rw [fitting]
    split
    · rw [byteCount]
      omega
    · exact Nat.zero_le limit

end RowMapper.Text
