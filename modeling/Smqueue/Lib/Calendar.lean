import Mathlib.Data.List.Basic
import Mathlib.Data.Int.Basic

/-!
# The calendar

Seconds since the beginning of 1970 and the dates of the Gregorian calendar, without leap seconds. A date
is found by walking over the years, and then over the months, as long as there are enough days left.
-/

namespace Calendar

/-! ## Walking -/

/-- The sum of `n` sizes from index `k` on. -/
def total (size : Nat → Nat) : Nat → Nat → Nat
  | _, 0 => 0
  | k, n + 1 => size k + total size (k + 1) n

/-- The index at which at most `fuel` steps from index `k` on stop for lack of `rest`, and what is left of
it. -/
def locate (size : Nat → Nat) : Nat → Nat → Nat → Nat × Nat
  | 0, k, rest => (k, rest)
  | fuel + 1, k, rest =>
    if rest < size k then (k, rest) else locate size fuel (k + 1) (rest - size k)

/-! ## Dates -/

def isLeap (year : Nat) : Bool := year % 4 = 0 && (year % 100 ≠ 0 || year % 400 = 0)

def yearDays (year : Nat) : Nat := if isLeap year then 366 else 365

/-- The days of a month, which are counted from zero. -/
def monthDays (year month : Nat) : Nat :=
  [31, if isLeap year then 29 else 28, 31, 30, 31, 30, 31, 31, 30, 31, 30, 31].getD month 31

/-- A time of the calendar: months are counted from zero, days from one. -/
structure Civil where
  year : Nat
  month : Nat
  day : Nat
  hour : Nat
  minute : Nat
  second : Nat
deriving DecidableEq, Repr

/-- The days since the beginning of 1970. -/
def Civil.days (c : Civil) : Int :=
  total yearDays 1970 (c.year - 1970) + total (monthDays c.year) 0 c.month + c.day - 1

/-- The seconds since the beginning of 1970. -/
def Civil.seconds (c : Civil) : Int := ((c.days * 24 + c.hour) * 60 + c.minute) * 60 + c.second

/-- The time so many seconds after the beginning of 1970. -/
def ofSeconds (n : Nat) : Civil :=
  let days := n / 86400
  let (year, day) := locate yearDays days 1970 days
  let (month, day) := locate (monthDays year) 11 0 day
  ⟨year, month, day + 1, n / 3600 % 24, n / 60 % 60, n % 60⟩

end Calendar
