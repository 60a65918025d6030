import RowMapper.Collection.Error
import RowMapper.Lease.Pool
import RowMapper.Result.Cursor
import RowMapper.Sql.CompileError

/-!
# Errors

All failures of the library by their causes. Each has a class, and one message, which names the
class first.
-/

namespace RowMapper

/-- The classes of failures. -/
inductive ErrorKind where
  /-- The schema or a setting is wrong; trying again does not help. -/
  | configuration
  /-- No rule accepts a node of an expression. -/
  | notCompilable
  /-- A statement or a result lacks something it needs. -/
  | statementState
  /-- The connection failed. -/
  | connection
  /-- Everything else, such as failures of the server. -/
  | other
  deriving Repr, DecidableEq

/-- The name of the class. -/
def ErrorKind.name : ErrorKind → String
  | .configuration => "Configuration"
  | .notCompilable => "NotCompilable"
  | .statementState => "StatementState"
  | .connection => "Connection"
  | .other => "Other"

/-- A failure. -/
inductive Error where
  | mapping (cause : MappingError)
  | notCompilable (defect : Defect) (node : Expr)
  | statement (cause : StatementError)
  | conversion (cause : ConversionError)
  | setting (cause : SettingError)
  | connectionString (cause : ConnectionStringError)
  | connection (cause : ConnectionFailure)
  | read (cause : ReadError)
  | collection (cause : CollectionError)
  | server (message : String)
  deriving DecidableEq

/-- The class of the failure. -/
def CollectionError.kind : CollectionError → ErrorKind
  | .compositeKey _ _ | .untracked _ _ => .configuration
  | .keyModified _ _ | .emptyKey _ _ | .onlyForced _ => .statementState
  | .notInserted _ | .notFound _ => .other

/-- The class of the failure. -/
def ReadError.kind : ReadError → ErrorKind
  | .noRow _ | .noColumn _ => .statementState
  | .conversion _ => .other

/-- The message of the failure. -/
def ReadError.message : ReadError → String
  | .noRow column => "Reading column `" ++ column ++ "` with no current row"
  | .noColumn column => "Column `" ++ column ++ "` is not part of the result"
  | .conversion cause => cause.message

/-- What a message of the class begins with. -/
def ErrorKind.heading : ErrorKind → String
  | .configuration => "Mapping configuration error: "
  | .notCompilable => "Expression is not compilable "
  | .statementState => "Invalid statement state: "
  | .connection => "Connection error: "
  | .other => ""

namespace Error

/-- The failure of a compilation. -/
def ofCompile : CompileError → Error
  | .mapping cause => .mapping cause
  | .notCompilable defect node => .notCompilable defect node

/-- The class of the failure. -/
def kind : Error → ErrorKind
  | .mapping _ | .setting _ | .connectionString _ => .configuration
  | .notCompilable _ _ => .notCompilable
  | .statement _ => .statementState
  | .connection _ => .connection
  | .read cause => cause.kind
  | .collection cause => cause.kind
  | .conversion _ | .server _ => .other

/-- What is told before the class: a text that is no URL was to be a connection string. -/
def context : Error → String
  | .connectionString (.url _) => "While parsing a connection string: "
  | _ => ""

/-- The message without its class. -/
def detail : Error → String
  | .mapping cause => cause.message
  | .notCompilable defect node => "(" ++ defect.message ++ "): " ++ node.inspect
  | .statement cause => cause.message
  | .conversion cause => cause.message
  | .setting cause => cause.message
  | .connectionString cause => cause.message
  | .connection cause => cause.message
  | .read cause => cause.message
  | .collection cause => cause.message
  | .server message => message

/-- The whole message. -/
def message (e : Error) : String := e.context ++ e.kind.heading ++ e.detail

end Error

/-- The causes of failures: what goes wrong in a part of the library is a failure of the whole. -/
class Cause (ε : Type) where
  toError : ε → Error

instance : Cause Error := ⟨id⟩
instance : Cause MappingError := ⟨.mapping⟩
instance : Cause CompileError := ⟨.ofCompile⟩
instance : Cause StatementError := ⟨.statement⟩
instance : Cause ConversionError := ⟨.conversion⟩
instance : Cause SettingError := ⟨.setting⟩
instance : Cause ConnectionStringError := ⟨.connectionString⟩
instance : Cause ConnectionFailure := ⟨.connection⟩
instance : Cause ReadError := ⟨.read⟩
instance : Cause CollectionError := ⟨.collection⟩

end RowMapper
