/-
The proleptic Gregorian calendar in UTC. Days are counted from 1 January
1970; `Date.ofDays` and `Date.toDays` go between that count and a date.
Both work in years that begin in March, so that the leap day is the last
of its year, and in eras of 400 years, which all have 146097 days.
-/

namespace LogPipeline

/-- A day of the proleptic Gregorian calendar. -/
structure Date where
  year : Int
  month : Nat
  day : Nat
  deriving DecidableEq

namespace Date

/-- The year of the era, from the day of the era. -/
def yearOfEra (doe : Nat) : Nat :=
  (doe - doe / 1460 + doe / 36524 - doe / 146096) / 365

/-- The days of the era before year `yoe`. -/
def daysBeforeYear (yoe : Nat) : Nat := 365 * yoe + yoe / 4 - yoe / 100

/-- The date `n` days after 1 January 1970. -/
def ofDays (n : Int) : Date :=
  let shifted := n + 719468
  let era := shifted / 146097
  let doe := (shifted % 146097).toNat
  let yoe := yearOfEra doe
  let doy := doe - daysBeforeYear yoe
  let mp := (5 * doy + 2) / 153
  let day := doy - (153 * mp + 2) / 5 + 1
  let month := if mp < 10 then mp + 3 else mp - 9
  let year : Int := yoe + era * 400
  ⟨if month ≤ 2 then year + 1 else year, month, day⟩

/-- The number of days from 1 January 1970 to the date. -/
def toDays (d : Date) : Int :=
  let year := if d.month ≤ 2 then d.year - 1 else d.year
  let era := year / 400
  let yoe := (year % 400).toNat
  let mp := if 2 < d.month then d.month - 3 else d.month + 9
  let doy := (153 * mp + 2) / 5 + d.day - 1
  era * 146097 + (daysBeforeYear yoe + doy : Nat) - 719468

/-- The day of the year, from 1. -/
def ordinal (d : Date) : Nat := (d.toDays - (Date.mk d.year 1 1).toDays + 1).toNat

/-- Days since the last Sunday. -/
def daysFromSunday (d : Date) : Nat := ((d.toDays + 4) % 7).toNat

/-- Days since the last Monday. -/
def daysFromMonday (d : Date) : Nat := ((d.toDays + 3) % 7).toNat

/-- The number of the week in its year, where a week begins on the weekday
that lies `sinceStart` days back and the days before the first one are week 0. -/
def weekFrom (d : Date) (sinceStart : Nat) : Nat := (d.ordinal + 6 - sinceStart) / 7

/-- The year and number of the week by the standard that gives a week to
the year of its Thursday. -/
def isoWeek (d : Date) : Int × Nat :=
  let thursday := ofDays (d.toDays - d.daysFromMonday + 3)
  (thursday.year, (thursday.ordinal - 1) / 7 + 1)

end Date

/-- A moment in UTC, to the millisecond. -/
structure Moment where
  date : Date
  hour : Nat
  minute : Nat
  second : Nat
  milli : Nat
  deriving DecidableEq

namespace Moment

/-- Milliseconds in a day. -/
def dayMillis : Nat := 86400000

/-- The moment `ms` milliseconds after the epoch. -/
def ofMillis (ms : Int) : Moment :=
  let inDay := (ms % dayMillis).toNat
  ⟨Date.ofDays (ms / dayMillis), inDay / 3600000, inDay / 60000 % 60, inDay / 1000 % 60,
    inDay % 1000⟩

/-- Milliseconds from the epoch to the moment. -/
def toMillis (m : Moment) : Int :=
  m.date.toDays * dayMillis
    + (((m.hour * 60 + m.minute) * 60 + m.second) * 1000 + m.milli : Nat)

/-- The first and the last millisecond that dates are told for: the start
of year -262143 and the end of year 262142. -/
def first : Int := -8334601228800000
def last : Int := 8210266876799999

def isInRange (ms : Int) : Bool := first ≤ ms && ms ≤ last

end Moment

end LogPipeline
