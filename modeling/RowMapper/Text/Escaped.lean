import RowMapper.Text.Hex
import RowMapper.Text.Invisible
import RowMapper.Text.Mark

/-!
# Escaped text

A text between quotes with the characters escaped that would end it or could not be seen.
-/

namespace RowMapper.Text

/-- The halfwidth sound marks, which are seen although they extend the character before them. -/
def visibleSigns : CodeSet := .ofRows ["ff9e-ff9f"]

/-- The character cannot be told by sight: it shows nothing, or is lost in the one before it. -/
def isUnseen (c : Char) : Bool :=
  isInvisible c || (isExtending c && !visibleSigns.contains c)

/-- A character as it stands between quotes. -/
def escapedChar (c : Char) : List Char :=
  match c with
  | '"' => ['\\', '"']
  | '\\' => ['\\', '\\']
  | '\n' => ['\\', 'n']
  | '\r' => ['\\', 'r']
  | '\t' => ['\\', 't']
  | c =>
    if c.toNat == 0 then ['\\', '0']
    else if isUnseen c then ['\\', 'u', '\x7b'] ++ hex c.toNat ++ ['\x7d']
    else [c]

/-- The text between quotes, escaped. -/
def quoted (s : String) : String :=
  "\"" ++ String.ofList (s.toList.flatMap escapedChar) ++ "\""

end RowMapper.Text
