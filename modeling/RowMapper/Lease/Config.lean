import RowMapper.Text.Blank
import RowMapper.Text.Digits

/-!
# Settings of leases

How long an unused connection stays open, how often the leases of ended threads are taken back,
and whether threads share connections. Times are in milliseconds. Settings have defaults that
the environment overrides.
-/

namespace RowMapper

/-- The settings of a lease manager. -/
structure LeaseConfig where
  /-- How long an unreferenced connection stays open. -/
  grace : Nat := 4500
  /-- The period of the background sweep. -/
  sweep : Nat := 30000
  /-- Each thread has connections of its own. -/
  threadAffine : Bool := true
  deriving Repr, DecidableEq

/-- The environment variables of the settings. -/
inductive LeaseVariable where
  | grace
  | sweep
  | threadAffine
  deriving Repr, DecidableEq

/-- The name of the variable. -/
def LeaseVariable.name : LeaseVariable → String
  | .grace => "QUARRY_LEASE_GRACE_MS"
  | .sweep => "QUARRY_LEASE_SWEEP_MS"
  | .threadAffine => "QUARRY_LEASE_THREAD_AFFINE"

/-- Why an environment gives no settings. -/
inductive SettingError where
  | invalid (setting : LeaseVariable) (value : String)
  | zero (setting : LeaseVariable)
  deriving Repr, DecidableEq

/-- The message of the failure. -/
def SettingError.message : SettingError → String
  | .invalid var value => "Invalid value `" ++ value ++ "` for " ++ var.name
  | .zero var => var.name ++ " must be greater than zero"

/-- The values of the variables that are set. -/
abbrev LeaseEnvironment := LeaseVariable → Option String

/-- Reads a number of 64 bits, with or without a plus sign before it. -/
def readCount (s : String) : Option Nat := do
  let digits := match s.toList with
    | '+' :: rest => rest
    | cs => cs
  let n ← Text.readDigits digits
  if n < UInt64.size then some n else none

/-- Reads a truth value. -/
def readFlag (s : String) : Option Bool :=
  match s with
  | "true" => some true
  | "false" => some false
  | _ => none

/-- Reads a variable, blanks around its value aside; none if it is not set. -/
def readVariable (env : LeaseEnvironment) (var : LeaseVariable) (read : String → Option α) :
    Except SettingError (Option α) :=
  match env var with
  | none => .ok none
  | some value =>
    match read (Text.trim value) with
    | some a => .ok (some a)
    | none => .error (.invalid var value)

namespace LeaseConfig

/-- The defaults, overridden by the variables that are set. The first faulty one in the order of
the settings is told. -/
def ofEnvironment (env : LeaseEnvironment) : Except SettingError LeaseConfig := do
  let grace ← readVariable env .grace readCount
  let sweep ← readVariable env .sweep readCount
  if sweep = some 0 then throw (.zero .sweep)
  let threadAffine ← readVariable env .threadAffine readFlag
  let default : LeaseConfig := {}
  return { grace := grace.getD default.grace
           sweep := sweep.getD default.sweep
           threadAffine := threadAffine.getD default.threadAffine }

end LeaseConfig

/-- A time in milliseconds as it is shown: in seconds with the decimals needed from one second
on, else in milliseconds. -/
def shownDuration (milliseconds : Nat) : String :=
  if milliseconds = 0 then "0ns"
  else if milliseconds < 1000 then toString milliseconds ++ "ms"
  else
    let decimals := Text.dropZeroEnd (Text.padded 3 (milliseconds % 1000))
    toString (milliseconds / 1000)
      ++ (if decimals.isEmpty then "" else "." ++ String.ofList decimals) ++ "s"

/-- What is shown of the settings. -/
def LeaseConfig.inspect (c : LeaseConfig) : String :=
  "LeaseConfig \x7b grace_period: " ++ shownDuration c.grace ++ ", sweep_interval: "
    ++ shownDuration c.sweep ++ ", thread_affine: " ++ toString c.threadAffine ++ " \x7d"

end RowMapper
