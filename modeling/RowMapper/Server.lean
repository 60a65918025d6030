import RowMapper.ConnectionString
import RowMapper.Log
import RowMapper.Result.Basic
import RowMapper.Statement.Basic

/-!
# Scripted servers

A network of servers that answer from a script: each statement takes the next scripted answer,
and yields nothing once there is none. A server is reached by the host of a connection string;
it remembers what ran on it, and how often it was connected to and left.
-/

namespace RowMapper

/-- A scripted server. -/
structure Server where
  name : String
  /-- The answers to the statements to come. -/
  answers : List Results := []
  /-- The statements run so far. -/
  statements : List Statement := []
  connects : Nat := 0
  disconnects : Nat := 0
  /-- New connections are refused. -/
  refusing : Bool := false
  deriving DecidableEq

/-- An open connection, by its number and the name of its server. -/
structure Connection where
  id : Nat
  server : String
  deriving Repr, DecidableEq

/-- Why no connection was made. -/
inductive ConnectError where
  | unknown (server : String)
  | refused (server : String)
  deriving Repr, DecidableEq

/-- The message of the failure. -/
def ConnectError.message : ConnectError → String
  | .unknown server => "No mock server named `" ++ server ++ "`"
  | .refused server => "Mock server `" ++ server ++ "` refused the connection"

namespace Server

/-- The scheme of the connection strings that reach scripted servers. -/
def scheme : String := "mock"

/-- A connection string that reaches the server. -/
def url (s : Server) : String := scheme ++ "://" ++ s.name ++ "/db"

/-- Adds an answer behind the others. -/
def script (s : Server) (answer : Results) : Server := { s with answers := s.answers ++ [answer] }

/-- Takes the next answer for a statement. -/
def run (s : Server) (statement : Statement) : Results × Server :=
  (s.answers.head?.getD [],
    { s with answers := s.answers.tail, statements := s.statements ++ [statement] })

end Server

/-- The servers within reach, and the number of connections opened so far. -/
structure Network where
  servers : List Server := []
  opened : Nat := 0
  /-- The servers fail to close connections. -/
  failsToClose : Bool := false
  deriving DecidableEq

namespace Network

/-- The server of a name. -/
def find? (n : Network) (name : String) : Option Server := n.servers.find? (·.name == name)

/-- Changes the server of a name. -/
def change (n : Network) (name : String) (f : Server → Server) : Network :=
  { n with servers := n.servers.map fun s => if s.name == name then f s else s }

/-- Opens a connection to the server that a connection string names. -/
def connect (n : Network) (url : ConnectionString) : Except ConnectError Connection × Network :=
  let name := url.host?.getD ""
  match n.find? name with
  | none => (.error (.unknown name), n)
  | some s =>
    if s.refusing then (.error (.refused name), n)
    else
      (.ok ⟨n.opened, name⟩,
        { n.change name (fun s => { s with connects := s.connects + 1 }) with
          opened := n.opened + 1 })

/-- Closes a connection; tells whether that succeeded. -/
def disconnect (n : Network) (c : Connection) : Bool × Network :=
  (!n.failsToClose, n.change c.server fun s => { s with disconnects := s.disconnects + 1 })

/-- Runs a statement over a connection. -/
def run (n : Network) (c : Connection) (statement : Statement) : Results × Network × Log :=
  match n.find? c.server with
  | none => ([], n, [])
  | some s =>
    let (results, s) := s.run statement
    (results, n.change c.server fun _ => s,
      [.debug ("Mock " ++ c.server ++ " runs: " ++ statement.display)])

end Network

end RowMapper
