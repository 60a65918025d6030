import RowMapper.Text.Digits

/-!
# Dates and timestamps

Days of the proleptic Gregorian calendar with years from -9999 to 9999, and moments of such a
day with nanoseconds.
-/

namespace RowMapper

/-- The year has a twenty-ninth of February. -/
def isLeapYear (year : Int) : Bool :=
  year % 4 == 0 && (year % 100 != 0 || year % 400 == 0)

/-- The number of days of a month, zero if there is no such month. -/
def daysInMonth (year : Int) (month : Nat) : Nat :=
  match month with
  | 2 => if isLeapYear year then 29 else 28
  | 4 | 6 | 9 | 11 => 30
  | 1 | 3 | 5 | 7 | 8 | 10 | 12 => 31
  | _ => 0

/-- A day of the calendar. -/
structure Date where
  year : Int
  month : Nat
  day : Nat
  year_le : year.natAbs ≤ 9999
  day_pos : 1 ≤ day
  day_le : day ≤ daysInMonth year month
  deriving DecidableEq

namespace Date

/-- The day with these numbers, if the calendar has it. -/
def of? (year : Int) (month day : Nat) : Option Date :=
  if h : year.natAbs ≤ 9999 ∧ 1 ≤ day ∧ day ≤ daysInMonth year month then
    some ⟨year, month, day, h.1, h.2.1, h.2.2⟩
  else none

/-- The first of January 1970. -/
def epoch : Date := ⟨1970, 1, 1, by decide, by decide, by decide⟩

/-- Year, month and day between hyphens; the year has at least four digits. -/
def text (d : Date) : String :=
  (if d.year < 0 then "-" else "") ++ String.ofList (Text.atLeast 4 d.year.natAbs) ++ "-"
    ++ String.ofList (Text.atLeast 2 d.month) ++ "-" ++ String.ofList (Text.atLeast 2 d.day)

/-- Reads a day as it is written. -/
def read? (s : String) : Option Date := do
  let (negative, cs) := match s.toList with
    | '-' :: rest => (true, rest)
    | cs => (false, cs)
  match (String.ofList cs).splitOn "-" with
  | [y, m, d] =>
    let year ← Text.readDigits y.toList
    let month ← Text.readDigits m.toList
    let day ← Text.readDigits d.toList
    of? (if negative then -(year : Int) else year) month day
  | _ => none

end Date

/-- A moment of a day. -/
structure Timestamp where
  date : Date
  hour : Nat
  minute : Nat
  second : Nat
  nanosecond : Nat
  hour_lt : hour < 24
  minute_lt : minute < 60
  second_lt : second < 60
  nanosecond_lt : nanosecond < 1000000000
  deriving DecidableEq

namespace Timestamp

/-- The moment with these numbers, if the day has it. -/
def of? (date : Date) (hour minute second nanosecond : Nat) : Option Timestamp :=
  if h : hour < 24 ∧ minute < 60 ∧ second < 60 ∧ nanosecond < 1000000000 then
    some ⟨date, hour, minute, second, nanosecond, h.1, h.2.1, h.2.2.1, h.2.2.2⟩
  else none

/-- Midnight at the start of 1970. -/
def epoch : Timestamp := ⟨Date.epoch, 0, 0, 0, 0, by decide, by decide, by decide, by decide⟩

/-- The date and, behind a `T`, the time with nine decimals. -/
def text (t : Timestamp) : String :=
  t.date.text ++ "T" ++ String.ofList (Text.padded 2 t.hour) ++ ":"
    ++ String.ofList (Text.padded 2 t.minute) ++ ":" ++ String.ofList (Text.padded 2 t.second)
    ++ "." ++ String.ofList (Text.padded 9 t.nanosecond)

/-- The date and, behind a blank, the time with an unpadded hour and as many decimals as are
needed, but one at least. -/
def shown (t : Timestamp) : String :=
  let decimals := Text.dropZeroEnd (Text.padded 9 t.nanosecond)
  t.date.text ++ " " ++ toString t.hour ++ ":" ++ String.ofList (Text.padded 2 t.minute) ++ ":"
    ++ String.ofList (Text.padded 2 t.second) ++ "."
    ++ (if decimals.isEmpty then "0" else String.ofList decimals)

/-- Reads a moment as `text` writes it. -/
def read? (s : String) : Option Timestamp := do
  match s.splitOn "T" with
  | [day, time] =>
    let date ← Date.read? day
    match time.splitOn ":" with
    | [h, m, rest] =>
      match rest.splitOn "." with
      | [sec, nanos] =>
        let hour ← Text.readDigits h.toList
        let minute ← Text.readDigits m.toList
        let second ← Text.readDigits sec.toList
        let nanosecond ← Text.readDigits nanos.toList
        of? date hour minute second nanosecond
      | _ => none
    | _ => none
  | _ => none

end Timestamp

end RowMapper
