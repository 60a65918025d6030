import RowMapper.Url.Reader

/-!
# Connection strings

A connection string is the URL of a database. The database is known by scheme, host, port and
path; credentials and options do not tell databases apart. A password is shown only to those
who ask for it.
-/

namespace RowMapper

/-- Why a text is no connection string. -/
inductive ConnectionStringError where
  | url (cause : UrlError)
  /-- The scheme belongs to another driver. -/
  | scheme (shown scheme expected : String)
  deriving Repr, DecidableEq

/-- The parsed URL of a database. -/
structure ConnectionString where
  url : Url
  deriving Repr, DecidableEq

namespace ConnectionString

/-- Reads a connection string. -/
def read (s : String) : Except ConnectionStringError ConnectionString :=
  match Url.read s with
  | .ok url => .ok ⟨url⟩
  | .error cause => .error (.url cause)

/-- The whole text. -/
def text (c : ConnectionString) : String := c.url.text

/-- The scheme. -/
def scheme (c : ConnectionString) : String := c.url.scheme

/-- The text of the host. -/
def host? (c : ConnectionString) : Option String := c.url.host.map Url.Host.text

/-- The port, unless it is the default. -/
def port? (c : ConnectionString) : Option Nat := c.url.port

/-- The path without slashes before it, decoded. -/
def database? (c : ConnectionString) : Option String :=
  let path := String.ofList (c.url.path.toList.dropWhile (· == '/'))
  if path.isEmpty then none else some (Url.decoded path)

/-- The user, decoded. -/
def user? (c : ConnectionString) : Option String :=
  if c.url.user.isEmpty then none else some (Url.decoded c.url.user)

/-- The password, decoded. -/
def password? (c : ConnectionString) : Option String := c.url.password.map Url.decoded

/-- The first option of a name. -/
def param? (c : ConnectionString) (name : String) : Option String :=
  c.url.queryPairs.lookup name

/-- What tells databases apart: scheme, host, port and path. -/
def key (c : ConnectionString) : String :=
  c.scheme ++ "://" ++ c.url.hostText ++ c.url.portText ++ c.url.path

/-- The text with asterisks for the password. -/
def redacted (c : ConnectionString) : String :=
  { c.url with password := c.url.password.map fun _ => "***" : Url }.text

/-- Reads a connection string for the driver of a scheme. -/
def readFor (driver s : String) : Except ConnectionStringError ConnectionString := do
  let c ← read s
  if c.scheme = driver then return c else .error (.scheme c.redacted c.scheme driver)

end ConnectionString

/-- The message of the failure. -/
def ConnectionStringError.message : ConnectionStringError → String
  | .url cause => "Invalid connection string: " ++ cause.message
  | .scheme shown found expected =>
    "Connection string `" ++ shown ++ "` has scheme `" ++ found ++ "`, the driver expects `"
      ++ expected ++ "`"

end RowMapper
