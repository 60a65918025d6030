import RowMapper.Url.Percent

/-!
# Paths of URLs

The path behind a root slash is a list of segments. A segment of one dot stands for nothing and
one of two dots takes the segment before it away; both leave an empty segment if they end the
path. A drive letter is never taken away.

Paths in a file system may begin with a drive letter. A slash behind it, or a tab or line end
with more of the segment to come, tells that it is one.
-/

namespace RowMapper.Url

/-- The text of an encoded segment of one dot, in any spelling. -/
def isDot (segment : String) : Bool := [".", "%2e", "%2E"].contains segment

/-- The text of an encoded segment of two dots, in any spelling. -/
def isDoubleDot (segment : String) : Bool :=
  ["..", "%2e%2e", "%2e%2E", "%2E%2e", "%2E%2E", "%2e.", "%2E.", ".%2e", ".%2E"].contains segment

/-- A letter and a colon or a bar. -/
def isDriveLetter (segment : String) : Bool :=
  match segment.toList with
  | [letter, mark] => letter.isAlpha && (mark == ':' || mark == '|')
  | _ => false

/-- The segments without the last one, unless that is a drive letter. -/
def dropSegment (segments : List String) : List String :=
  if (segments.getLast?).any isDriveLetter then segments else segments.dropLast

/-- Adds a segment; the last one of a path is always there, even if it is empty. -/
def addSegment (segments : List String) (last : Bool) (segment : String) : List String :=
  let ending := if last then [""] else []
  if isDoubleDot segment then dropSegment segments ++ ending
  else if isDot segment then segments ++ ending
  else segments ++ [segment]

/-- Adds segments, of which the last ends the path. -/
def addSegments (segments : List String) : List String → List String
  | [] => segments
  | [segment] => addSegment segments true segment
  | segment :: rest => addSegments (addSegment segments false segment) rest

/-- Cuts the characters at each separator. -/
def cutAt (isSeparator : Char → Bool) : List Char → List (List Char)
  | [] => [[]]
  | c :: rest =>
    if isSeparator c then [] :: cutAt isSeparator rest
    else
      match cutAt isSeparator rest with
      | [] => [[c]]
      | piece :: pieces => (c :: piece) :: pieces

/-- The encoded segments between separators. -/
def segmentsOf (isSeparator : Char → Bool) (cs : List Char) : List String :=
  addSegments [] ((cutAt isSeparator cs).map fun piece =>
    String.ofList (percentEncode inPathSet piece))

/-- The path of the segments. -/
def rooted (segments : List String) : String := "/" ++ "/".intercalate segments

/-! ## Paths in a file system -/

/-- A tab or line end, which does not count in a URL. -/
def isBreak (c : Char) : Bool := c == '\t' || c == '\n' || c == '\r'

/-- The characters that count. -/
def unbroken (cs : List Char) : List Char := cs.filter (!isBreak ·)

/-- A drive letter with its colon, and what stands behind a tab or line end that follows it. -/
def cutDrive (piece : List Char) : Option (List Char × List Char) :=
  match piece.dropWhile isBreak with
  | [] => none
  | letter :: more =>
    match more.dropWhile isBreak with
    | ':' :: mark :: rest =>
      if letter.isAlpha && isBreak mark && !(unbroken rest).isEmpty then
        some ([letter, ':'], unbroken rest)
      else none
    | _ => none

/-- The segments of a path in a file system. -/
structure FilePath where
  segments : List String := []
  /-- A drive letter with a slash behind it leads the path, which then is on no other host. -/
  onDrive : Bool := false
  deriving Repr, DecidableEq

namespace FilePath

/-- Adds the characters up to a slash, or to the end if they are the last. -/
def add (path : FilePath) (last : Bool) (piece : List Char) : FilePath :=
  let encode (cs : List Char) : String := String.ofList (percentEncode inPathSet cs)
  let segment := encode (unbroken piece)
  if !path.segments.isEmpty then { path with segments := addSegment path.segments last segment }
  else
    match cutDrive piece with
    | some (drive, rest) => { path with segments := [String.ofList drive, encode rest] }
    | none =>
      if isDriveLetter segment && !last then
        ⟨[String.ofList (segment.toList.take 1 ++ [':'])], true⟩
      else { path with segments := addSegment [] last segment }

/-- Adds pieces, of which the last ends the path. -/
def addAll (path : FilePath) : List (List Char) → FilePath
  | [] => path
  | [piece] => path.add true piece
  | piece :: rest => (path.add false piece).addAll rest

/-- Reads a path behind its root slash. -/
def ofChars (isSeparator : Char → Bool) (cs : List Char) : FilePath :=
  addAll {} (cutAt isSeparator cs)

end FilePath

end RowMapper.Url
