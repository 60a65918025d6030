import RowMapper.Value.Inspect

/-!
# Native types

The types a program holds in place of values: one for each kind of data, and its optional form.
Every native value is a value of its kind (`toValue`), and `ofValue` reads it back. Reading
accepts the data of the kind itself and, for integers, the other widths as long as the number
fits; single precision is also read as double. An optional type reads every NULL as nothing.
-/

namespace RowMapper

/-- The native type that holds data of a kind. -/
abbrev Kind.Carrier : Kind → Type
  | .boolean => Bool
  | .int16 => Int16
  | .int32 => Int32
  | .int64 => Int64
  | .float32 => Binary32
  | .float64 => Binary64
  | .decimal => Decimal
  | .varchar => String
  | .blob => List UInt8
  | .date => Date
  | .timestamp => Timestamp
  | .uuid => Uuid

/-- Why a value cannot be read as a native type. -/
inductive ConversionError where
  /-- The value is of another kind, or NULL. -/
  | mismatch (value : Value) (target : Kind)
  /-- The integer does not fit. -/
  | outOfRange (number : Int) (source target : Kind)
  deriving DecidableEq

/-- The name of the native type of a kind in messages. -/
def Kind.nativeName : Kind → String
  | .boolean => "bool"
  | .int16 => "i16"
  | .int32 => "i32"
  | .int64 => "i64"
  | .float32 => "f32"
  | .float64 => "f64"
  | .decimal => "rust_decimal::decimal::Decimal"
  | .varchar => "alloc::string::String"
  | .blob => "alloc::vec::Vec<u8>"
  | .date => "time::date::Date"
  | .timestamp => "time::plain_date_time::PlainDateTime"
  | .uuid => "uuid::Uuid"

/-- The message of the failure. -/
def ConversionError.message : ConversionError → String
  | .mismatch value target => "Cannot convert " ++ value.inspect ++ " to " ++ target.nativeName
  | .outOfRange number source target =>
    "Value " ++ toString number ++ ": " ++ source.nativeName ++ " is out of range for "
      ++ target.nativeName

namespace Kind

/-- The native value as a datum. -/
def datum : (kind : Kind) → kind.Carrier → Datum
  | .boolean => .boolean
  | .int16 => .int16
  | .int32 => .int32
  | .int64 => .int64
  | .float32 => .float32
  | .float64 => .float64
  | .decimal => .decimal
  | .varchar => .varchar
  | .blob => .blob
  | .date => .date
  | .timestamp => .timestamp
  | .uuid => .uuid

/-- The number as 16 bits if it fits. -/
def narrow16 (number : Int) (source : Kind) : Except ConversionError Int16 :=
  if Int16.minValue.toInt ≤ number ∧ number ≤ Int16.maxValue.toInt then .ok (Int16.ofInt number)
  else .error (.outOfRange number source .int16)

/-- The number as 32 bits if it fits. -/
def narrow32 (number : Int) (source : Kind) : Except ConversionError Int32 :=
  if Int32.minValue.toInt ≤ number ∧ number ≤ Int32.maxValue.toInt then .ok (Int32.ofInt number)
  else .error (.outOfRange number source .int32)

/-- Reads a value as the native type of the kind. -/
def ofValue : (kind : Kind) → Value → Except ConversionError kind.Carrier
  | .boolean, .of (.boolean b) => .ok b
  | .int16, .of (.int16 n) => .ok n
  | .int16, .of (.int32 n) => narrow16 n.toInt .int32
  | .int16, .of (.int64 n) => narrow16 n.toInt .int64
  | .int32, .of (.int32 n) => .ok n
  | .int32, .of (.int16 n) => .ok (Int32.ofInt n.toInt)
  | .int32, .of (.int64 n) => narrow32 n.toInt .int64
  | .int64, .of (.int64 n) => .ok n
  | .int64, .of (.int16 n) => .ok (Int64.ofInt n.toInt)
  | .int64, .of (.int32 n) => .ok (Int64.ofInt n.toInt)
  | .float32, .of (.float32 x) => .ok x
  | .float64, .of (.float64 x) => .ok x
  | .float64, .of (.float32 x) => .ok x.widen
  | .decimal, .of (.decimal d) => .ok d
  | .varchar, .of (.varchar s) => .ok s
  | .blob, .of (.blob bytes) => .ok bytes
  | .date, .of (.date d) => .ok d
  | .timestamp, .of (.timestamp t) => .ok t
  | .uuid, .of (.uuid u) => .ok u
  | kind, value => .error (.mismatch value kind)

/-- The native value a new member starts with. -/
def initial : (kind : Kind) → kind.Carrier
  | .boolean => false
  | .int16 => (0 : Int16)
  | .int32 => (0 : Int32)
  | .int64 => (0 : Int64)
  | .float32 => ⟨0⟩
  | .float64 => ⟨0⟩
  | .decimal => Decimal.zero
  | .varchar => ""
  | .blob => []
  | .date => Date.epoch
  | .timestamp => Timestamp.epoch
  | .uuid => Uuid.nil

/-- Reading what was written gives it back. -/
@[simp] theorem ofValue_datum (kind : Kind) (a : kind.Carrier) :
    kind.ofValue (.of (kind.datum a)) = .ok a := by
  cases kind <;> rfl

/-- The datum of a native value has the kind of its type. -/
@[simp] theorem kind_datum (kind : Kind) (a : kind.Carrier) : (kind.datum a).kind = kind := by
  cases kind <;> rfl

end Kind

/-- A native type: that of a kind, or its optional form. -/
inductive NativeType where
  | required (kind : Kind)
  | optional (kind : Kind)
  deriving Repr, DecidableEq

namespace NativeType

/-- The kind of data the type holds. -/
def kind : NativeType → Kind
  | .required kind => kind
  | .optional kind => kind

/-- What the native type holds. -/
abbrev Carrier : NativeType → Type
  | .required kind => kind.Carrier
  | .optional kind => Option kind.Carrier

/-- The NULL of the kind. -/
def emptyValue (type : NativeType) : Value := .null (.of type.kind)

/-- The native value as a value; nothing is the NULL of the kind. -/
def toValue : (type : NativeType) → type.Carrier → Value
  | .required kind, a => .of (kind.datum a)
  | .optional kind, some a => .of (kind.datum a)
  | .optional kind, none => .null (.of kind)

/-- Reads a value as the native type; an optional type reads every NULL as nothing. -/
def ofValue : (type : NativeType) → Value → Except ConversionError type.Carrier
  | .required kind, value => kind.ofValue value
  | .optional kind, value => if value.isNull then .ok none else (kind.ofValue value).map some

/-- Equality of native values, numeric for floating point and decimal numbers. -/
def equal : (type : NativeType) → type.Carrier → type.Carrier → Bool
  | .required kind, a, b => (kind.datum a).equal (kind.datum b)
  | .optional kind, some a, some b => (kind.datum a).equal (kind.datum b)
  | .optional _, none, none => true
  | .optional _, _, _ => false

/-- What is shown of a native value. -/
def inspect : (type : NativeType) → type.Carrier → String
  | .required kind, a => (kind.datum a).inspect
  | .optional kind, a => inspectOption (fun a => (kind.datum a).inspect) a

/-- The native value a new member starts with. -/
def initial : (type : NativeType) → type.Carrier
  | .required kind => kind.initial
  | .optional _ => none

end NativeType

end RowMapper
