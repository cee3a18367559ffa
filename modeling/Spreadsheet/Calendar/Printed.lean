import Spreadsheet.Calendar

/-!
# Dates, times and durations as text

`Moment.display` is what a cell shows: `2024-03-01 12:30:00` with milliseconds if there are any,
`2024-03-01`, `12:30:00` with microseconds if there are any, `1 day, 1:30:00`. `Moment.shown` is
what a message says: the parts by kind, with seconds and microseconds left out at the end if they
are zero.
-/

namespace Spreadsheet

def padded (width n : Nat) : List Char :=
  let digits := Nat.toDigits 10 n
  List.replicate (width - digits.length) '0' ++ digits

def Date.iso (d : Date) : List Char :=
  padded 4 d.year ++ '-' :: padded 2 d.month ++ '-' :: padded 2 d.day

namespace Time

def clock (t : Time) : List Char :=
  padded 2 t.hour ++ ':' :: padded 2 t.minute ++ ':' :: padded 2 t.second

def iso (t : Time) : List Char :=
  t.clock ++ if t.microsecond = 0 then [] else '.' :: padded 6 t.microsecond

def isoMilliseconds (t : Time) : List Char :=
  t.clock ++ if t.microsecond = 0 then [] else '.' :: padded 3 (t.microsecond / 1000)

end Time

def DateTime.display (d : DateTime) : List Char :=
  d.date.iso ++ ' ' :: d.time.isoMilliseconds

def Duration.display (d : Duration) : List Char :=
  let days :=
    if d.days = 0 then []
    else (toString d.days).toList ++ (if d.days.natAbs = 1 then " day, " else " days, ").toList
  days ++ Nat.toDigits 10 (d.seconds / 3600) ++ ':' :: padded 2 (d.seconds / 60 % 60) ++
    ':' :: padded 2 (d.seconds % 60) ++
    if d.microseconds = 0 then [] else '.' :: padded 6 d.microseconds

namespace Moment

def display : Moment → String
  | .dateTime d => String.ofList d.display
  | .date d => String.ofList d.iso
  | .time t => String.ofList t.iso
  | .duration d => String.ofList d.display

def timeParts (t : Time) : List Nat :=
  if t.microsecond ≠ 0 then [t.hour, t.minute, t.second, t.microsecond]
  else if t.second ≠ 0 then [t.hour, t.minute, t.second]
  else [t.hour, t.minute]

def call (kind : String) (parts : List String) : String :=
  "datetime." ++ kind ++ "(" ++ ", ".intercalate parts ++ ")"

def dateParts (d : Date) : List Nat := [d.year, d.month, d.day]

def durationParts (d : Duration) : List String :=
  let parts := [("days", d.days), ("seconds", (d.seconds : Int)),
    ("microseconds", (d.microseconds : Int))]
  match parts.filter fun p => p.2 ≠ 0 with
  | [] => ["0"]
  | rest => rest.map fun p => p.1 ++ "=" ++ toString p.2

def shown : Moment → String
  | .dateTime d => call "datetime" ((dateParts d.date ++ timeParts d.time).map toString)
  | .date d => call "date" ((dateParts d).map toString)
  | .time t => call "time" ((timeParts t).map toString)
  | .duration d => call "timedelta" (durationParts d)

end Moment

end Spreadsheet
