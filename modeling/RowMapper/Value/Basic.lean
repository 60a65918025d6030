import RowMapper.Calendar
import RowMapper.Number.Binary
import RowMapper.Number.Decimal
import RowMapper.Uuid

/-!
# Values

A value is what a column holds: a datum of one of twelve kinds, or the NULL of a type. Even an
absent value knows its type, except the untyped NULL.

Equality of values compares data of one kind as numbers, texts, bytes or moments. Values of
different types are never equal, and two NULLs are equal if they have the same type.
-/

namespace RowMapper

/-- The kinds of data. -/
inductive Kind where
  | boolean
  | int16
  | int32
  | int64
  | float32
  | float64
  | decimal
  | varchar
  | blob
  | date
  | timestamp
  | uuid
  deriving Repr, DecidableEq

/-- The type of a value: a kind of data, or none for the untyped NULL. -/
inductive ValueType where
  | untyped
  | of (kind : Kind)
  deriving Repr, DecidableEq

/-- A datum of one of the kinds. -/
inductive Datum where
  | boolean (b : Bool)
  | int16 (n : Int16)
  | int32 (n : Int32)
  | int64 (n : Int64)
  | float32 (x : Binary32)
  | float64 (x : Binary64)
  | decimal (d : Decimal)
  | varchar (s : String)
  | blob (bytes : List UInt8)
  | date (d : Date)
  | timestamp (t : Timestamp)
  | uuid (u : Uuid)
  deriving DecidableEq

/-- The NULL of a type, or a datum. -/
inductive Value where
  | null (type : ValueType)
  | of (datum : Datum)
  deriving DecidableEq

/-- The name of the kind. -/
def Kind.name : Kind → String
  | .boolean => "Boolean"
  | .int16 => "Int16"
  | .int32 => "Int32"
  | .int64 => "Int64"
  | .float32 => "Float32"
  | .float64 => "Float64"
  | .decimal => "Decimal"
  | .varchar => "Varchar"
  | .blob => "Blob"
  | .date => "Date"
  | .timestamp => "Timestamp"
  | .uuid => "Uuid"

/-- The kinds in their order. -/
def Kind.all : List Kind :=
  [.boolean, .int16, .int32, .int64, .float32, .float64, .decimal, .varchar, .blob, .date,
    .timestamp, .uuid]

namespace ValueType

/-- The name of the type. -/
def name : ValueType → String
  | .untyped => "Null"
  | .of kind => kind.name

/-- The types in their order, the untyped NULL first. -/
def all : List ValueType := .untyped :: Kind.all.map .of

/-- A column of this type has no empty state of its own: all types but text, bytes and none. -/
def isValueType : ValueType → Bool
  | .untyped | .of .varchar | .of .blob => false
  | .of _ => true

/-- The NULL of the type. -/
abbrev emptyValue (type : ValueType) : Value := .null type

end ValueType

namespace Datum

/-- The kind of the datum. -/
def kind : Datum → Kind
  | .boolean _ => .boolean
  | .int16 _ => .int16
  | .int32 _ => .int32
  | .int64 _ => .int64
  | .float32 _ => .float32
  | .float64 _ => .float64
  | .decimal _ => .decimal
  | .varchar _ => .varchar
  | .blob _ => .blob
  | .date _ => .date
  | .timestamp _ => .timestamp
  | .uuid _ => .uuid

/-- Equality of data: numeric for floating point and decimal numbers. -/
def equal : Datum → Datum → Bool
  | .float32 x, .float32 y => x.equal y
  | .float64 x, .float64 y => x.equal y
  | .decimal x, .decimal y => x.equal y
  | .float32 _, _ | .float64 _, _ | .decimal _, _ => false
  | x, y => x == y

end Datum

namespace Value

/-- The NULL without a type. -/
abbrev untyped : Value := .null .untyped

/-- The value is a NULL of some type. -/
def isNull : Value → Bool
  | .null _ => true
  | .of _ => false

/-- The type of the value. -/
def type : Value → ValueType
  | .null type => type
  | .of datum => .of datum.kind

/-- The two values have one type. -/
def sameType (a b : Value) : Bool := a.type == b.type

/-- Equality of values. -/
def equal : Value → Value → Bool
  | .null t, .null u => t == u
  | .of x, .of y => x.equal y
  | _, _ => false

/-- Only NULL is empty. -/
def isEmptyDefault (v : Value) : Bool := v.isNull

/-- NULL and the integer zero are empty. -/
def isEmptyInteger : Value → Bool
  | .of (.int16 n) => n == 0
  | .of (.int32 n) => n == 0
  | .of (.int64 n) => n == 0
  | v => v.isNull

/-- NULL and the nil identifier are empty. -/
def isEmptyUuid : Value → Bool
  | .of (.uuid u) => u.isNil
  | v => v.isNull

@[simp] theorem isNull_null (type : ValueType) : (null type).isNull = true := rfl

@[simp] theorem isNull_of (datum : Datum) : (of datum).isNull = false := rfl

@[simp] theorem type_emptyValue (t : ValueType) : t.emptyValue.type = t := rfl

end Value

end RowMapper
