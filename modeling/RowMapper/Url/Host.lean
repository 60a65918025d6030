import RowMapper.Text.Digits
import RowMapper.Url.Domain
import RowMapper.Url.Percent

/-!
# Hosts

The host of a URL is a name or a network address. Special schemes read their hosts as domain
names, in which an ending that is a number makes the whole an address of four numbers; other
schemes take a name as it is. Brackets hold an address of eight numbers in every scheme.
-/

namespace RowMapper

-- a power is the one that is computed, whatever else is in scope
attribute [local instance (high)] instPowNat

/-- Why a text is no URL. -/
inductive UrlError where
  | emptyHost
  | domainName
  | port
  | address4
  | address6
  | domainCharacter
  | noScheme
  deriving Repr, DecidableEq

/-- The message of the failure. -/
def UrlError.message : UrlError → String
  | .emptyHost => "empty host"
  | .domainName => "invalid international domain name"
  | .port => "invalid port number"
  | .address4 => "invalid IPv4 address"
  | .address6 => "invalid IPv6 address"
  | .domainCharacter => "invalid domain character"
  | .noScheme => "relative URL without a base"

namespace Url

/-- A host. -/
inductive Host where
  | name (text : String)
  | address4 (number : Nat)
  | address6 (pieces : List Nat)
  deriving Repr, DecidableEq

/-! ## Addresses of four numbers -/

/-- The number as four numbers with dots. -/
def address4Text (n : Nat) : String :=
  ".".intercalate
    ([n / 0x1000000, n / 0x10000 % 0x100, n / 0x100 % 0x100, n % 0x100].map toString)

/-- The number that the digits of a base stand for. -/
def readBase (base : Nat) (cs : List Char) : Option Nat :=
  cs.foldl (fun acc c => acc.bind fun n =>
    (Text.hexValue? c).bind fun d => if d < base then some (n * base + d) else none) (some 0)

/-- Reads a part of an address: hexadecimal behind `0x`, octal behind `0`, else decimal. -/
def readPart (cs : List Char) : Option Nat :=
  match cs with
  | [] => none
  | '0' :: 'x' :: rest | '0' :: 'X' :: rest => readBase 16 rest
  | '0' :: c :: rest => readBase 8 (c :: rest)
  | cs => readBase 10 cs

/-- The parts between dots, without an empty one at the end. -/
def dotParts (s : String) : List String :=
  let parts := s.splitOn "."
  if parts.getLast? == some "" then parts.dropLast else parts

/-- The last part between dots is a number. -/
def endsInNumber (s : String) : Bool :=
  match (dotParts s).getLast? with
  | none => false
  | some last =>
    let cs := last.toList
    (!cs.isEmpty && cs.all Text.isDigit) || (readPart cs).isSome

/-- Reads an address: each part but the last is one number, the last fills up the rest. -/
def readAddress4 (s : String) : Except UrlError Nat :=
  let parts := dotParts s
  match parts.mapM fun part => readPart part.toList with
  | none => .error .address4
  | some numbers =>
    match numbers.getLast? with
    | none => .error .address4
    | some last =>
      let front := numbers.dropLast
      if 3 < front.length || front.any (255 < ·) || 256 ^ (4 - front.length) ≤ last then
        .error .address4
      else
        .ok (front.zipIdx.foldl (fun total (n, i) => total + n * 256 ^ (3 - i)) last)

/-! ## Addresses of eight numbers -/

/-- Reads four decimal numbers with dots, none above 255 and none with a leading zero. -/
def readDotted (s : String) : Option (List Nat) := do
  let numbers ← (s.splitOn ".").mapM fun part => do
    let n ← Text.readDigits part.toList
    if 255 < n || (part.length > 1 && part.startsWith "0") then none else some n
  if numbers.length = 4 then some numbers else none

/-- Reads up to four hexadecimal digits. -/
def readPiece (s : String) : Option Nat :=
  if s.isEmpty || 4 < s.length then none else Text.readHex s.toList

/-- Reads pieces between colons; the last may be four numbers with dots, if that is allowed. -/
def readPieces (dottedEnd : Bool) (s : String) : Option (List Nat) :=
  if s.isEmpty then some []
  else
    let parts := s.splitOn ":"
    let last := parts.getLast?.getD ""
    if dottedEnd && last.contains '.' then do
      let front ← parts.dropLast.mapM readPiece
      match ← readDotted last with
      | [a, b, c, d] => some (front ++ [a * 256 + b, c * 256 + d])
      | _ => none
    else parts.mapM readPiece

/-- Reads eight pieces, of which two colons stand for as many zeros as are missing. -/
def readAddress6 (s : String) : Except UrlError (List Nat) :=
  let pieces : Option (List Nat) :=
    match s.splitOn "::" with
    | [whole] => do
      let pieces ← readPieces true whole
      if pieces.length = 8 then some pieces else none
    | [front, back] => do
      let front ← readPieces false front
      let back ← readPieces true back
      if front.length + back.length ≤ 7 then
        some (front ++ List.replicate (8 - front.length - back.length) 0 ++ back)
      else none
    | _ => none
  match pieces with
  | some pieces => .ok pieces
  | none => .error .address6

/-- A run of zeros among the pieces. -/
structure ZeroRun where
  start : Nat
  length : Nat

/-- The first of the longest runs of zeros, from a position on, if it is longer than `best`. -/
def longestRun (best : ZeroRun) (current : ZeroRun) : List Nat → ZeroRun
  | [] => if best.length < current.length then current else best
  | 0 :: rest => longestRun best { current with length := current.length + 1 } rest
  | _ :: rest =>
    longestRun (if best.length < current.length then current else best)
      ⟨current.start + current.length + 1, 0⟩ rest

/-- The pieces in hexadecimal between colons; two colons stand for the longest run of zeros, the
first of several, if it is longer than one. -/
def address6Text (pieces : List Nat) : String :=
  let written (ps : List Nat) : String :=
    ":".intercalate (ps.map fun p => String.ofList (Text.hex p))
  let run := longestRun ⟨0, 0⟩ ⟨0, 0⟩ pieces
  if run.length < 2 then written pieces
  else written (pieces.take run.start) ++ "::" ++ written (pieces.drop (run.start + run.length))

/-! ## Names -/

/-- A character that ends or divides a host, or is never part of one. -/
def isForbiddenInHost (c : Char) : Bool :=
  [(Char.ofNat 0), '\t', '\n', '\r', ' ', '#', '/', ':', '<', '>', '?', '@', '[', '\\', ']', '^',
    '|'].contains c

/-- Reads a domain name. -/
def readDomain (s : String) : Except UrlError String :=
  let name := (Text.ofUtf8? (percentDecode (Text.toUtf8 s))).bind fun decoded =>
    Domain.asciiForm? decoded.toList
  match name with
  | some name => .ok (String.ofList name)
  | none => .error .domainName

/-- The text between brackets, if the text is one. -/
def bracketed (s : String) : Except UrlError String :=
  match s.toList.dropLast, s.toList.getLast? with
  | _ :: inner, some ']' => .ok (String.ofList inner)
  | _, _ => .error .address6

/-- Reads the host of a special scheme. -/
def readSpecialHost (s : String) : Except UrlError Host := do
  if s.startsWith "[" then return .address6 (← readAddress6 (← bracketed s))
  else
    let domain ← readDomain s
    if domain.isEmpty then .error .emptyHost
    else if endsInNumber domain then return .address4 (← readAddress4 domain)
    else return .name domain

/-- Reads the host of any other scheme. -/
def readPlainHost (s : String) : Except UrlError Host := do
  if s.startsWith "[" then return .address6 (← readAddress6 (← bracketed s))
  else if s.toList.any isForbiddenInHost then .error .domainCharacter
  else return .name (String.ofList (percentEncode isControl s.toList))

/-- The text of a host. -/
def Host.text : Host → String
  | .name text => text
  | .address4 number => address4Text number
  | .address6 pieces => "[" ++ address6Text pieces ++ "]"

end Url

end RowMapper
