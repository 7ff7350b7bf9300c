namespace CardIndex

def isLeapYear (year : Int) : Bool := (year % 4 = 0 && year % 100 ≠ 0) || year % 400 = 0

def daysInMonth (year : Int) (month : Nat) : Nat :=
  if month = 2 then if isLeapYear year then 29 else 28
  else if month = 4 ∨ month = 6 ∨ month = 9 ∨ month = 11 then 30
  else 31

/-- A day of the Gregorian calendar, which is carried on into the past, in the years that are supported. -/
structure Date where
  year : Int
  month : Nat
  day : Nat
  year_range : -262143 ≤ year ∧ year ≤ 262142
  month_range : 1 ≤ month ∧ month ≤ 12
  day_range : 1 ≤ day ∧ day ≤ daysInMonth year month
deriving DecidableEq

namespace Date

def of? (year : Int) (month day : Nat) : Option Date :=
  if h : (-262143 ≤ year ∧ year ≤ 262142) ∧ (1 ≤ month ∧ month ≤ 12) ∧
      (1 ≤ day ∧ day ≤ daysInMonth year month) then
    some ⟨year, month, day, h.1, h.2.1, h.2.2⟩
  else none

/-- The day after. -/
def next? (d : Date) : Option Date :=
  if d.day < daysInMonth d.year d.month then of? d.year d.month (d.day + 1)
  else if d.month < 12 then of? d.year (d.month + 1) 1
  else of? (d.year + 1) 1 1

/-- The day before. -/
def previous? (d : Date) : Option Date :=
  if 1 < d.day then of? d.year d.month (d.day - 1)
  else if 1 < d.month then of? d.year (d.month - 1) (daysInMonth d.year (d.month - 1))
  else of? (d.year - 1) 12 31

/-- The day that many days after the first of January 1970. Years are counted from March here, so that a leap
day ends its year; 146097 days are four hundred years. -/
def ofDayNumber? (n : Int) : Option Date :=
  let n := n + 719468
  let era := n / 146097
  let day := (n % 146097).toNat
  let yearOfEra := (day - day / 1460 + day / 36524 - day / 146096) / 365
  let dayOfYear := day - (365 * yearOfEra + yearOfEra / 4 - yearOfEra / 100)
  let marchMonth := (5 * dayOfYear + 2) / 153
  let dayOfMonth := dayOfYear - (153 * marchMonth + 2) / 5 + 1
  let month := if marchMonth < 10 then marchMonth + 3 else marchMonth - 9
  of? (era * 400 + yearOfEra + (if month ≤ 2 then 1 else 0)) month dayOfMonth

end Date

/-- A moment in universal time. Second 60 is a leap second, which any minute may have. -/
structure Timestamp where
  date : Date
  hour : Nat
  minute : Nat
  second : Nat
  nanosecond : Nat
  hour_lt : hour < 24
  minute_lt : minute < 60
  second_le : second ≤ 60
  nanosecond_lt : nanosecond < 1000000000
deriving DecidableEq

namespace Timestamp

def of? (date : Date) (hour minute second nanosecond : Nat) : Option Timestamp :=
  if h : hour < 24 ∧ minute < 60 ∧ second ≤ 60 ∧ nanosecond < 1000000000 then
    some ⟨date, hour, minute, second, nanosecond, h.1, h.2.1, h.2.2.1, h.2.2.2⟩
  else none

/-- The moment that many minutes earlier; less than a day. -/
def earlier? (t : Timestamp) (minutes : Int) : Option Timestamp := do
  let total := (t.hour * 60 + t.minute : Nat) - minutes
  let date ← if total < 0 then t.date.previous? else if 1440 ≤ total then t.date.next? else some t.date
  let inDay := (total % 1440).toNat
  of? date (inDay / 60) (inDay % 60) t.second t.nanosecond

/-- The moment that many nanoseconds after the start of 1970. -/
def ofUnixNanoseconds? (n : Int) : Option Timestamp := do
  let seconds := n / 1000000000
  let date ← Date.ofDayNumber? (seconds / 86400)
  let inDay := (seconds % 86400).toNat
  of? date (inDay / 3600) (inDay / 60 % 60) (inDay % 60) (n % 1000000000).toNat

end Timestamp

end CardIndex
