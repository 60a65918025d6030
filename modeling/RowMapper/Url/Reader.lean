import RowMapper.Text.Blank
import RowMapper.Url.Basic
import RowMapper.Url.Path

/-!
# Reading URLs

A text is read as the URL standard says, without a base: a scheme, then for special schemes
always an authority, for others only behind two slashes, then path, query and fragment. Blanks
and controls around the text and tabs and line ends within it do not count. Special schemes also
take backslashes for slashes.
-/

namespace RowMapper.Url

/-- How a scheme shapes what follows. -/
inductive SchemeClass where
  | special
  | file
  | plain
  deriving Repr, DecidableEq

/-- The class of a scheme. -/
def schemeClass (scheme : String) : SchemeClass :=
  if scheme == "file" then .file
  else if ["http", "https", "ws", "wss", "ftp"].contains scheme then .special
  else .plain

/-- The port that a scheme leaves out. -/
def defaultPort (scheme : String) : Option Nat :=
  [("http", 80), ("ws", 80), ("https", 443), ("wss", 443), ("ftp", 21)].lookup scheme

/-- The text without blanks and controls at its ends. -/
def trimmed (s : String) : List Char :=
  let outer (c : Char) : Bool := c.toNat ≤ 0x20
  ((s.toList.dropWhile outer).reverse.dropWhile outer).reverse

/-- The scheme in lower case, and what follows its colon. -/
def readScheme (cs : List Char) : Option (String × List Char) :=
  let isPart (c : Char) : Bool := c.isAlphanum || c == '+' || c == '-' || c == '.'
  let scheme := cs.takeWhile isPart
  match scheme, cs.dropWhile isPart with
  | first :: _, ':' :: rest =>
    if first.isAlpha then some (String.ofList (scheme.map Char.toLower), rest) else none
  | _, _ => none

/-- The characters that separate an authority from a path and the segments of a path. -/
def isSlash (scheme : SchemeClass) (c : Char) : Bool :=
  c == '/' || (scheme != .plain && c == '\\')

/-- The character ends an authority. -/
def endsAuthority (scheme : SchemeClass) (c : Char) : Bool :=
  isSlash scheme c || c == '?' || c == '#'

/-- Query and fragment, from the text behind a path. -/
def readQuery (scheme : SchemeClass) (cs : List Char) : Option String × Option String :=
  let set := if scheme == .plain then inQuerySet else inSpecialQuerySet
  let fragment (cs : List Char) : Option String :=
    match cs with
    | '#' :: rest => some (String.ofList (percentEncode inFragmentSet rest))
    | _ => none
  match cs with
  | '?' :: rest =>
    (some (String.ofList (percentEncode set (rest.takeWhile (· != '#')))),
      fragment (rest.dropWhile (· != '#')))
  | cs => (none, fragment cs)

/-- Cuts the text before its query or fragment. -/
def cutQuery (cs : List Char) : List Char × List Char :=
  let isPath (c : Char) : Bool := c != '?' && c != '#'
  (cs.takeWhile isPath, cs.dropWhile isPath)

/-! ## Authorities -/

/-- User name and password, encoded, and what follows them. -/
structure Credentials where
  user : String := ""
  password : Option String := none
  present : Bool := false
  rest : List Char

/-- The characters up to the last at sign, and those behind it. -/
def cutLastAt (cs : List Char) : Option (List Char × List Char) :=
  if cs.contains '@' then
    let back := (cs.reverse.takeWhile (· != '@')).reverse
    some (cs.take (cs.length - back.length - 1), back)
  else none

/-- Reads what precedes the last at sign of an authority. -/
def readCredentials (scheme : SchemeClass) (cs : List Char) : Except UrlError Credentials :=
  let ends := endsAuthority scheme
  let encode (cs : List Char) : String := String.ofList (percentEncode inUserSet cs)
  match cutLastAt (cs.takeWhile (!ends ·)) with
  | none => .ok { rest := cs }
  | some (info, back) =>
    let rest := back ++ cs.dropWhile (!ends ·)
    if info.isEmpty then
      if rest.head?.any ends then .error .emptyHost else .ok { rest }
    else
      let user := info.takeWhile (· != ':')
      let password := (info.dropWhile (· != ':')).drop 1
      .ok
        { user := encode user
          password := if password.isEmpty then none else some (encode password)
          present := !user.isEmpty || !password.isEmpty
          rest }

/-- The characters of a host: up to a colon outside brackets or the end of the authority. -/
def takeHost (scheme : SchemeClass) (inBrackets : Bool) : List Char → List Char × List Char
  | [] => ([], [])
  | c :: rest =>
    if (c == ':' && !inBrackets) || endsAuthority scheme c then ([], c :: rest)
    else
      let inBrackets := if c == '[' then true else if c == ']' then false else inBrackets
      let (host, rest) := takeHost scheme inBrackets rest
      (c :: host, rest)

/-- Reads the digits of a port behind its colon; the default port is left out. -/
def readPort (scheme : String) (cs : List Char) : Except UrlError (Option Nat × List Char) :=
  let digits := cs.takeWhile Text.isDigit
  let rest := cs.dropWhile Text.isDigit
  let number := (Text.readDigits digits).getD 0
  if 65535 < number then .error .port
  else if rest.head?.any fun c => !(c == '/' || c == '\\' || c == '?' || c == '#') then
    .error .port
  else if digits.isEmpty || defaultPort scheme == some number then .ok (none, rest)
  else .ok (some number, rest)

/-- Reads host and port. An empty host is no host, and takes neither port nor credentials. -/
def readHostPort (scheme : String) (hasCredentials : Bool) (cs : List Char) :
    Except UrlError (Option Host × Option Nat × List Char) := do
  let cls := schemeClass scheme
  let (hostChars, rest) := takeHost cls false cs
  let host ← if cls == .plain then readPlainHost (String.ofList hostChars)
    else if hostChars.isEmpty then .error .emptyHost
    else readSpecialHost (String.ofList hostChars)
  let host := if host == .name "" then none else some host
  if host.isNone && rest.head? == some ':' then .error .emptyHost
  else
    let (port, rest) ← match rest with
      | ':' :: digits => readPort scheme digits
      | rest => .ok (none, rest)
    if host.isNone && hasCredentials then .error .emptyHost
    else return (host, port, rest)

/-! ## Whole URLs -/

/-- The path behind an authority. That of a special scheme is never empty. -/
def pathBehindAuthority (scheme : SchemeClass) (cs : List Char) : String :=
  let isSeparator := isSlash scheme
  match cs with
  | [] => if scheme == .plain then "" else "/"
  | c :: rest => rooted (segmentsOf isSeparator (if isSeparator c then rest else cs))

/-- Reads a URL behind the two slashes of its authority. -/
def readAuthority (scheme : String) (cs : List Char) : Except UrlError Url := do
  let cls := schemeClass scheme
  let credentials ← readCredentials cls cs
  let (host, port, rest) ← readHostPort scheme credentials.present credentials.rest
  let (pathChars, rest) := cutQuery rest
  let (query, fragment) := readQuery cls rest
  return { scheme, hasAuthority := true, user := credentials.user,
           password := credentials.password, host, port,
           path := pathBehindAuthority cls pathChars, query, fragment }

/-- Reads a URL without an authority. -/
def readPath (scheme : String) (cs : List Char) : Url :=
  let (pathChars, rest) := cutQuery cs
  let (query, fragment) := readQuery .plain rest
  let path := match pathChars with
    | '/' :: segments => rooted (segmentsOf (· == '/') segments)
    | chars => String.ofList (percentEncode isControl chars)
  { scheme, hasAuthority := false, path, query, fragment }

/-- Reads the host of a file, which may be missing. -/
def readFileHost (cs : List Char) : Except UrlError (Option Host) :=
  if cs.isEmpty then .ok none
  else (readSpecialHost (String.ofList cs)).map fun host =>
    if host == .name "localhost" then none else some host

/-- The URL of a file. No empty segments lead its path. -/
def fileUrl (host : Option Host) (pathChars rest : List Char) : Url :=
  let (query, fragment) := readQuery .file (unbroken rest)
  let path := FilePath.ofChars (isSlash .file) pathChars
  { scheme := "file", hasAuthority := true
    host := if path.onDrive then none else host
    path := rooted (path.segments.dropWhile (·.isEmpty)), query, fragment }

/-- Reads the URL of a file behind its scheme, with the tabs and line ends that it has: behind
two slashes a host and a path, else a path. -/
def readFile (cs : List Char) : Except UrlError Url := do
  let slash := isSlash .file
  let (pathChars, rest) := cutQuery cs
  match pathChars.dropWhile isBreak with
  | [] => return fileUrl none [] rest
  | a :: more =>
    if !slash a then return fileUrl none pathChars rest
    else
      match more.dropWhile isBreak with
      | [] => return fileUrl none [] rest
      | b :: behind =>
        if !slash b then return fileUrl none more rest
        else
          let hostChars := unbroken (behind.takeWhile (!slash ·))
          if isDriveLetter (String.ofList hostChars) then return fileUrl none behind rest
          else
            let host ← readFileHost hostChars
            return fileUrl host ((behind.dropWhile (!slash ·)).drop 1) rest

/-- Reads a URL. -/
def read (s : String) : Except UrlError Url :=
  match readScheme (unbroken (trimmed s)) with
  | none => .error .noScheme
  | some (scheme, rest) =>
    match schemeClass scheme, rest with
    | .special, rest => readAuthority scheme (rest.dropWhile (isSlash .special))
    | .file, _ => readFile (((trimmed s).dropWhile (· != ':')).drop 1)
    | .plain, '/' :: '/' :: rest => readAuthority scheme rest
    | .plain, rest => .ok (readPath scheme rest)

end RowMapper.Url
