/-!
# Dates, times of day and durations

Dates run from the year 1 to the year 9999 of the Gregorian calendar. A duration is a whole number
of microseconds, kept as days, seconds of a day and microseconds of a second, so only the days can
be negative.
-/

namespace Spreadsheet

def isLeapYear (year : Nat) : Bool :=
  year % 4 = 0 && (year % 100 ≠ 0 || year % 400 = 0)

def daysInMonth (year month : Nat) : Nat :=
  if month = 2 then (if isLeapYear year then 29 else 28)
  else if month = 4 ∨ month = 6 ∨ month = 9 ∨ month = 11 then 30
  else 31

structure Date where
  year : Nat
  month : Nat
  day : Nat
  year_mem : 1 ≤ year ∧ year ≤ 9999
  month_mem : 1 ≤ month ∧ month ≤ 12
  day_mem : 1 ≤ day ∧ day ≤ daysInMonth year month
  deriving DecidableEq

def Date.of? (year month day : Nat) : Option Date :=
  if h : (1 ≤ year ∧ year ≤ 9999) ∧ (1 ≤ month ∧ month ≤ 12) ∧
      1 ≤ day ∧ day ≤ daysInMonth year month then
    some ⟨year, month, day, h.1, h.2.1, h.2.2⟩
  else none

structure Time where
  hour : Nat
  minute : Nat
  second : Nat
  microsecond : Nat
  hour_lt : hour < 24
  minute_lt : minute < 60
  second_lt : second < 60
  microsecond_lt : microsecond < 1000000
  deriving DecidableEq

namespace Time

def of? (hour minute second microsecond : Nat) : Option Time :=
  if h : hour < 24 ∧ minute < 60 ∧ second < 60 ∧ microsecond < 1000000 then
    some ⟨hour, minute, second, microsecond, h.1, h.2.1, h.2.2.1, h.2.2.2⟩
  else none

def midnight : Time :=
  ⟨0, 0, 0, 0, by decide, by decide, by decide, by decide⟩

end Time

structure DateTime where
  date : Date
  time : Time
  deriving DecidableEq

structure Duration where
  days : Int
  seconds : Nat
  microseconds : Nat
  days_mem : -999999999 ≤ days ∧ days ≤ 999999999
  seconds_lt : seconds < 86400
  microseconds_lt : microseconds < 1000000
  deriving DecidableEq

def Duration.of? (days : Int) (seconds microseconds : Nat) : Option Duration :=
  if h : (-999999999 ≤ days ∧ days ≤ 999999999) ∧ seconds < 86400 ∧ microseconds < 1000000 then
    some ⟨days, seconds, microseconds, h.1, h.2.1, h.2.2⟩
  else none

def Duration.ofMicroseconds? (total : Int) : Option Duration :=
  let seconds := total / 1000000
  Duration.of? (seconds / 86400) (seconds % 86400).toNat (total % 1000000).toNat

def Duration.sum? (days seconds microseconds : Int) : Option Duration :=
  Duration.ofMicroseconds? ((days * 86400 + seconds) * 1000000 + microseconds)

inductive Moment where
  | dateTime (d : DateTime)
  | date (d : Date)
  | time (t : Time)
  | duration (d : Duration)
  deriving DecidableEq

/-! ## Dates and times from any numbers -/

inductive FieldError where
  | year (n : Int)
  | month
  | day
  | hour
  | minute
  | second
  | microsecond
  deriving DecidableEq, Repr

def FieldError.message : FieldError → String
  | .year n => "year " ++ toString n ++ " is out of range"
  | .month => "month must be in 1..12"
  | .day => "day is out of range for month"
  | .hour => "hour must be in 0..23"
  | .minute => "minute must be in 0..59"
  | .second => "second must be in 0..59"
  | .microsecond => "microsecond must be in 0..999999"

def Date.ofNumbers (year month day : Int) : Except FieldError Date :=
  if year < 1 ∨ 9999 < year then .error (.year year)
  else if month < 1 ∨ 12 < month then .error .month
  else
    match Date.of? year.toNat month.toNat day.toNat with
    | some d => .ok d
    | none => .error .day

def Time.ofNumbers (hour minute second microsecond : Int) : Except FieldError Time :=
  if hour < 0 ∨ 23 < hour then .error .hour
  else if minute < 0 ∨ 59 < minute then .error .minute
  else if second < 0 ∨ 59 < second then .error .second
  else if microsecond < 0 then .error .microsecond
  else
    match Time.of? hour.toNat minute.toNat second.toNat microsecond.toNat with
    | some t => .ok t
    | none => .error .microsecond

/-! ## Fields make up what they came from -/

theorem Date.of?_eq_some (d : Date) : Date.of? d.year d.month d.day = some d := by
  simp [Date.of?, d.year_mem, d.month_mem, d.day_mem]

theorem Time.of?_eq_some (t : Time) : Time.of? t.hour t.minute t.second t.microsecond = some t := by
  simp [Time.of?, t.hour_lt, t.minute_lt, t.second_lt, t.microsecond_lt]

end Spreadsheet
