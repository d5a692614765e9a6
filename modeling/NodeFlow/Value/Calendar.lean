/-!
# Dates and moments

Calendar dates and moments of the day, as graph files may hold them. A moment may carry its distance
from universal time; only two moments that both do, or both do not, can be ordered.
-/

namespace NodeFlow

/-- A day of the proleptic Gregorian calendar. -/
structure Date where
  year : Nat
  month : Nat
  day : Nat
deriving DecidableEq, Repr

/-- A time of a day, and its distance from universal time in seconds where that is known. -/
structure Moment where
  date : Date
  hour : Nat
  minute : Nat
  second : Nat
  microsecond : Nat
  offset : Option Int
deriving DecidableEq, Repr

/-- A number in decimal, filled with zeros to a width. -/
def paddedDecimal (width n : Nat) : String :=
  let digits := Nat.toDigits 10 n
  String.ofList (List.replicate (width - digits.length) '0' ++ digits)

namespace Date

/-- Whether a year has a 29th of February. -/
def isLeap (year : Nat) : Bool := year % 4 == 0 && (year % 100 != 0 || year % 400 == 0)

/-- The number of days of a month; zero when there is no such month. -/
def monthLength (year month : Nat) : Nat :=
  match month with
  | 1 | 3 | 5 | 7 | 8 | 10 | 12 => 31
  | 4 | 6 | 9 | 11 => 30
  | 2 => if isLeap year then 29 else 28
  | _ => 0

/-- Whether a day exists in the calendar of the years 1 to 9999. -/
def isValid (d : Date) : Bool :=
  1 ≤ d.year && d.year ≤ 9999 && 1 ≤ d.day && d.day ≤ monthLength d.year d.month

/-- The number of days before a day, counted from the first of January of year 1. -/
def ordinal (d : Date) : Nat :=
  let years := d.year - 1
  let months := (List.range (d.month - 1)).map fun m => monthLength d.year (m + 1)
  years * 365 + years / 4 - years / 100 + years / 400 + months.foldl (· + ·) 0 + d.day - 1

/-- A date as `2025-01-15`. -/
def text (d : Date) : String :=
  paddedDecimal 4 d.year ++ "-" ++ paddedDecimal 2 d.month ++ "-" ++ paddedDecimal 2 d.day

/-- The fields of a date, separated by commas. -/
def fields (d : Date) : String := ", ".intercalate ([d.year, d.month, d.day].map toString)

/-- How two dates follow each other. -/
def order (d e : Date) : Ordering := compare d.ordinal e.ordinal

end Date

namespace Moment

/-- The microseconds since the first of January of year 1 on the moment's own clock. -/
def clock (t : Moment) : Int :=
  (((t.date.ordinal * 24 + t.hour) * 60 + t.minute) * 60 + t.second) * 1000000 + t.microsecond

/-- The microseconds of universal time, for a moment that knows its distance from it. -/
def instant (t : Moment) : Int := t.clock - t.offset.getD 0 * 1000000

/-- How two moments follow each other; `none` when only one of them is tied to universal time. -/
def order? (t u : Moment) : Option Ordering :=
  match t.offset, u.offset with
  | none, none => some (compare t.clock u.clock)
  | some _, some _ => some (compare t.instant u.instant)
  | _, _ => none

/-- A distance from universal time as `+01:00`, with seconds only where there are any. -/
def offsetText (offset : Int) : String :=
  let size := offset.natAbs
  (if offset < 0 then "-" else "+") ++ paddedDecimal 2 (size / 3600) ++ ":"
    ++ paddedDecimal 2 (size / 60 % 60)
    ++ if size % 60 = 0 then "" else ":" ++ paddedDecimal 2 (size % 60)

/-- A moment with the given separator between its day and its time. -/
def textWith (separator : String) (t : Moment) : String :=
  t.date.text ++ separator ++ paddedDecimal 2 t.hour ++ ":" ++ paddedDecimal 2 t.minute ++ ":"
    ++ paddedDecimal 2 t.second
    ++ (if t.microsecond = 0 then "" else "." ++ paddedDecimal 6 t.microsecond)
    ++ (t.offset.map offsetText).getD ""

/-- The day, hour and minute of a moment, and what follows them down to the last part that is not
zero, separated by commas. -/
def fields (t : Moment) : String :=
  let small :=
    if t.microsecond = 0 then if t.second = 0 then [] else [t.second]
    else [t.second, t.microsecond]
  t.date.fields ++ ", " ++ ", ".intercalate ((t.hour :: t.minute :: small).map toString)

end Moment

end NodeFlow
