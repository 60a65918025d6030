import RowMapper.Value.Basic

/-!
# Key strategies

How the empty primary key of a new row gets its value: from a generator in process before the
insert, or from the server, by templates that run around the insert. A dialect has at most one
strategy for each type of key.
-/

namespace RowMapper

/-- Which keys count as empty. -/
inductive Emptiness where
  /-- NULL only. -/
  | null
  /-- NULL and the integer zero. -/
  | zero
  /-- NULL and the nil identifier. -/
  | nilUuid
  deriving Repr, DecidableEq

/-- The value is an empty key. -/
def Emptiness.test : Emptiness → Value → Bool
  | .null => Value.isEmptyDefault
  | .zero => Value.isEmptyInteger
  | .nilUuid => Value.isEmptyUuid

/-- A generator of keys in process. -/
inductive KeyGenerator where
  /-- An identifier of random bits. -/
  | random
  /-- The next of a list of values, NULL once there is none. -/
  | queued
  deriving Repr, DecidableEq

/-- How an empty key of one type gets its value. The templates may name the key variable, the
column and the table. -/
structure KeyStrategy where
  valueType : ValueType
  /-- Runs before the insert. -/
  preInsert : Option String := none
  /-- Runs right after the insert. -/
  postInsert : Option String := none
  /-- Yields the key once the insert ran. -/
  reference : String := ""
  /-- The column takes part in the insert, with the reference for its value. -/
  duringInsert : Bool := false
  emptiness : Emptiness := .null
  /-- Goes before the templates. -/
  generator : Option KeyGenerator := none
  deriving Repr, DecidableEq

namespace KeyStrategy

/-- The server makes the key during the insert. -/
def server (valueType : ValueType) (reference : String) (emptiness : Emptiness) : KeyStrategy :=
  { valueType, reference, emptiness }

/-- The key is made in process before the insert. -/
def client (valueType : ValueType) (generator : KeyGenerator) (emptiness : Emptiness) :
    KeyStrategy :=
  { valueType, emptiness, duringInsert := true, generator := some generator }

end KeyStrategy

/-- The strategies of a dialect, one for each type of key at most. -/
structure KeyStrategies where
  entries : List KeyStrategy := []
  deriving Repr, DecidableEq

namespace KeyStrategies

/-- The strategy for keys of the type. -/
def find? (s : KeyStrategies) (type : ValueType) : Option KeyStrategy :=
  s.entries.find? (·.valueType == type)

/-- Adds a strategy in place of the former one for its type. -/
def register (s : KeyStrategies) (strategy : KeyStrategy) : KeyStrategies :=
  ⟨strategy :: s.entries.filter (·.valueType != strategy.valueType)⟩

/-- The strategies registered one after the other. -/
def ofList (strategies : List KeyStrategy) : KeyStrategies := strategies.foldl register ⟨[]⟩

/-- The number of types with a strategy. -/
def size (s : KeyStrategies) : Nat := s.entries.length

/-- The value is an empty key of its type; without a strategy only NULL is. -/
def isEmptyKey (s : KeyStrategies) (v : Value) : Bool :=
  match s.find? v.type with
  | some strategy => strategy.emptiness.test v
  | none => v.isEmptyDefault

/-- The strategy registered last for a type is the one found. -/
theorem find?_register (s : KeyStrategies) (strategy : KeyStrategy) :
    (s.register strategy).find? strategy.valueType = some strategy := by
  simp [find?, register]

end KeyStrategies

/-- What the generators take keys from: a sequence of random bits, of which some are used up,
and a list of values. -/
structure KeySupply where
  random : Nat → BitVec 128
  drawn : Nat := 0
  queued : List Value := []

/-- The next key of a generator, and the supply without it. -/
def KeySupply.generate (supply : KeySupply) : KeyGenerator → Value × KeySupply
  | .random =>
    (.of (.uuid (Uuid.random (supply.random supply.drawn))),
      { supply with drawn := supply.drawn + 1 })
  | .queued =>
    match supply.queued with
    | [] => (.untyped, supply)
    | v :: rest => (v, { supply with queued := rest })

end RowMapper
