import RowMapper.Url.Host

/-!
# URLs

A URL and its text. The parts are kept in their encoded form.
-/

namespace RowMapper

/-- A URL. A host can be missing even behind two slashes. -/
structure Url where
  scheme : String
  /-- Two slashes follow the scheme. -/
  hasAuthority : Bool
  user : String := ""
  password : Option String := none
  host : Option Url.Host := none
  port : Option Nat := none
  path : String
  query : Option String := none
  fragment : Option String := none
  deriving Repr, DecidableEq

namespace Url

/-- The part between the slashes and the host. -/
def userText (u : Url) : String :=
  match u.user.isEmpty, u.password with
  | true, none => ""
  | _, none => u.user ++ "@"
  | _, some password => u.user ++ ":" ++ password ++ "@"

/-- The text of the host. -/
def hostText (u : Url) : String := (u.host.map Host.text).getD ""

/-- The text of the port, behind a colon. -/
def portText (u : Url) : String :=
  match u.port with
  | none => ""
  | some port => ":" ++ toString port

/-- What stands between the scheme and the path. A path that starts with two slashes would pass
for an authority, so it is set apart by a dot. -/
def authorityText (u : Url) : String :=
  if u.hasAuthority then "//" ++ u.userText ++ u.hostText ++ u.portText
  else if u.path.startsWith "//" then "/."
  else ""

/-- The whole text. -/
def text (u : Url) : String :=
  u.scheme ++ ":" ++ u.authorityText ++ u.path
    ++ (match u.query with
      | none => ""
      | some query => "?" ++ query)
    ++ (match u.fragment with
      | none => ""
      | some fragment => "#" ++ fragment)

/-- The names and values of the query, decoded. -/
def queryPairs (u : Url) : List (String × String) :=
  let plain (cs : List Char) : String :=
    let spaced := String.ofList (cs.map fun c => if c == '+' then ' ' else c)
    Text.ofUtf8Lossy (percentDecode (Text.toUtf8 spaced))
  let pieces := ((u.query.getD "").splitOn "&").filter (!·.isEmpty)
  pieces.map fun piece =>
    let cs := piece.toList
    (plain (cs.takeWhile (· != '=')), plain ((cs.dropWhile (· != '=')).drop 1))

end Url

end RowMapper
