/-
# Timestamps

An instant in universal time with nanoseconds, in the proleptic Gregorian
calendar.  The sixtieth second of a minute may be written, as a leap second
needs it.  The written form has a four-digit year, or a signed year of at least
four digits outside 0 to 9999, and the fewest of 0, 3, 6 or 9 fraction digits
that are exact.
-/
import Gamebook.Text.Numeral

namespace Gamebook

/-! ## Calendar -/

/-- Whether a year has a twenty-ninth of February. -/
def isLeapYear (year : Int) : Bool := year % 4 == 0 && (year % 100 != 0 || year % 400 == 0)

/-- The number of days of a month; 0 for a number that names no month. -/
def daysInMonth (year : Int) (month : Nat) : Nat :=
  match month with
  | 2 => if isLeapYear year then 29 else 28
  | 4 | 6 | 9 | 11 => 30
  | 1 | 3 | 5 | 7 | 8 | 10 | 12 => 31
  | _ => 0

/-- A day of the calendar.  Nothing here says that it exists. -/
structure Date where
  year : Int
  month : Nat
  day : Nat
deriving DecidableEq

namespace Date

/-- The day exists, in a year that a timestamp may have. -/
def Valid (d : Date) : Prop :=
  -262143 ≤ d.year ∧ d.year ≤ 262142 ∧ 1 ≤ d.day ∧ d.day ≤ daysInMonth d.year d.month

instance (d : Date) : Decidable d.Valid := inferInstanceAs (Decidable (_ ∧ _))

def next (d : Date) : Date :=
  if d.day < daysInMonth d.year d.month then { d with day := d.day + 1 }
  else if d.month < 12 then ⟨d.year, d.month + 1, 1⟩
  else ⟨d.year + 1, 1, 1⟩

def previous (d : Date) : Date :=
  if 1 < d.day then { d with day := d.day - 1 }
  else if 1 < d.month then ⟨d.year, d.month - 1, daysInMonth d.year (d.month - 1)⟩
  else ⟨d.year - 1, 12, 31⟩

end Date

structure Clock where
  hour : Nat
  minute : Nat
  second : Nat
  nanosecond : Nat
deriving DecidableEq

namespace Clock

/-- The time exists; any minute may have a leap second. -/
def Valid (c : Clock) : Prop :=
  c.hour < 24 ∧ c.minute < 60 ∧ c.second ≤ 60 ∧ c.nanosecond < 1000000000

instance (c : Clock) : Decidable c.Valid := inferInstanceAs (Decidable (_ ∧ _))

end Clock

/-! ## Instants -/

structure Timestamp where
  date : Date
  clock : Clock
  date_valid : date.Valid
  clock_valid : clock.Valid
deriving DecidableEq

namespace Timestamp

def epoch : Timestamp := ⟨⟨1970, 1, 1⟩, ⟨0, 0, 0, 0⟩, by decide, by decide⟩

/-- An instant from a date and a time of day, if both exist. -/
def ofParts? (date : Date) (clock : Clock) : Option Timestamp :=
  if hd : date.Valid then
    if hc : clock.Valid then some ⟨date, clock, hd, hc⟩ else none
  else none

/-- An instant from the local date and time at an offset of some minutes east of Greenwich.  The
offset is less than a day, so the date moves by at most one. -/
def ofLocal? (date : Date) (clock : Clock) (offset : Int) : Option Timestamp := do
  let here ← ofParts? date clock
  if offset.natAbs < 1440 then
    let minutes : Int := (60 * clock.hour + clock.minute : Nat) - offset
    let minuteOfDay := (minutes % 1440).toNat
    let date :=
      if minutes < 0 then here.date.previous
      else if 1440 ≤ minutes then here.date.next
      else here.date
    ofParts? date { clock with hour := minuteOfDay / 60, minute := minuteOfDay % 60 }
  else none

/-! ## The written form -/

/-- A year with four digits, or with its sign and at least four. -/
def yearText (year : Int) : List Char :=
  if year < 0 then '-' :: Text.decimalPadded 4 year.natAbs
  else if year ≤ 9999 then Text.decimalPadded 4 year.natAbs
  else '+' :: Text.decimalPadded 4 year.natAbs

/-- The fraction of a second with its point, in groups of three digits; nothing if it is zero. -/
def fractionText (nanosecond : Nat) : List Char :=
  if nanosecond = 0 then []
  else if nanosecond % 1000000 = 0 then '.' :: Text.decimalPadded 3 (nanosecond / 1000000)
  else if nanosecond % 1000 = 0 then '.' :: Text.decimalPadded 6 (nanosecond / 1000)
  else '.' :: Text.decimalPadded 9 nanosecond

def chars (t : Timestamp) : List Char :=
  let two := Text.decimalPadded 2
  yearText t.date.year ++ '-' :: two t.date.month ++ '-' :: two t.date.day ++
    'T' :: two t.clock.hour ++ ':' :: two t.clock.minute ++ ':' :: two t.clock.second ++
    fractionText t.clock.nanosecond ++ ['Z']

def text (t : Timestamp) : String := String.ofList t.chars

end Timestamp

end Gamebook
