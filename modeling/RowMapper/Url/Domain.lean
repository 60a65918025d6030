import RowMapper.Text.Composed
import RowMapper.Text.Mark
import RowMapper.Url.Domain.Direction
import RowMapper.Url.Domain.Folded
import RowMapper.Url.Domain.Joining
import RowMapper.Url.Percent
import RowMapper.Url.Punycode

/-!
# Domain names

A domain name is a list of labels with full stops between them. Its ASCII form has labels of
ASCII characters only: one with others is written in Punycode behind `xn--`. Both forms of a name
are read; the characters are folded, so that all spellings of a name have one ASCII form.

A name is refused if it could not be told from another by sight, or would be another one when its
ASCII form is read back.
-/

namespace RowMapper.Url.Domain

/-- A character that is never part of a domain name, since it has a meaning in a URL or around
one. -/
def isForbidden (c : Char) : Bool :=
  isControl c || [' ', '#', '%', '/', ':', '<', '>', '?', '@', '[', '\\', ']', '^', '|'].contains c

/-- What the ASCII forms of labels with other characters begin with. -/
def asciiFormMark : List Char := ['x', 'n', '-', '-']

/-- The most characters of a label that is written in Punycode. -/
def longestLabel : Nat := 1000

/-- The most characters of Punycode that are read. -/
def longestForm : Nat := 2000

/-- A label with characters beyond ASCII is well formed: it is not too long, does not begin with
a mark, and its joiners have letters to join. -/
def isWellFormed (label : List Char) : Bool :=
  label.length ≤ longestLabel && !(label.head?).any Text.isMark && joinersFit [] label

/-- The folding changes nothing about the label. -/
def isFolded (label : List Char) : Bool :=
  label.all (fun c => foldedChar c == some [c]) && Text.composed label == label

/-- The label that a text in Punycode stands for, if the label is written in no other way. -/
def labelOfForm? (form : List Char) : Option (List Char) :=
  if longestForm < form.length || form.getLast? == some '-' then none
  else
    (Punycode.decode form).filter fun label =>
      label.any (0x80 ≤ ·.toNat) && !asciiFormMark.isPrefixOf label && isFolded label
        && isWellFormed label

/-- A label in the characters that it stands for. -/
def readLabel (label : List Char) : Option (List Char) :=
  if asciiFormMark.isPrefixOf label then labelOfForm? (label.drop asciiFormMark.length)
  else if label.all (·.toNat < 0x80) then some label
  else if isWellFormed label then some label
  else none

/-- A label in ASCII characters. -/
def writeLabel (label : List Char) : List Char :=
  if label.all (·.toNat < 0x80) then label else asciiFormMark ++ Punycode.encode label

/-- The name folded and composed, if all its characters can be part of a name. -/
def folded? (name : List Char) : Option (List Char) := do
  let folded := Text.composed (← name.mapM foldedChar).flatten
  if folded.any isForbidden then none else some folded

/-- The labels between full stops. -/
def cutLabels : List Char → List (List Char)
  | [] => [[]]
  | c :: rest =>
    match cutLabels rest with
    | [] => [[c]]
    | label :: labels => if c == '.' then [] :: label :: labels else (c :: label) :: labels

/-- The ASCII form of a domain name. -/
def asciiForm? (name : List Char) : Option (List Char) := do
  let labels ← (cutLabels (← folded? name)).mapM readLabel
  if labels.any runsRight && !labels.all isUnambiguous then none
  else some (['.'].intercalate (labels.map writeLabel))

end RowMapper.Url.Domain
