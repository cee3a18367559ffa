import Spreadsheet.Calendar
import Spreadsheet.Number.Decimal
import Spreadsheet.Text.Digit

/-!
# Reading dates, times and durations

A text is read from its front, and what follows the part that was understood is ignored. First comes
an optional date `YYYY-MM-DD`, then an optional `T`, then an optional time `HH:MM`, `HH:MM:SS` or
`HH:MM:SS` with one to three digits of a second. If there is neither date nor time, a duration
`PT1H2M3.5S` with at least one of its parts is read.
-/

namespace Spreadsheet

open Text

inductive IsoError where
  | malformed
  | durationTooLong
  deriving DecidableEq, Repr

def takeChar? (c : Char) : List Char → Option (List Char)
  | [] => none
  | d :: cs => if d = c then some cs else none

def takeDigits? (n : Nat) (cs : List Char) : Option (Nat × List Char) :=
  let digits := cs.take n
  if digits.length = n && digits.all isDecimal then some (decimalValue digits, cs.drop n) else none

def takeNumber? (cs : List Char) : Option (List Char × List Char) :=
  match cs.takeWhile isDecimal with
  | [] => none
  | digits => some (digits, cs.dropWhile isDecimal)

/-! ## Dates and times -/

def takeDate? (cs : List Char) : Option ((Nat × Nat × Nat) × List Char) := do
  let (year, cs) ← takeDigits? 4 cs
  let cs ← takeChar? '-' cs
  let (month, cs) ← takeDigits? 2 cs
  let cs ← takeChar? '-' cs
  let (day, cs) ← takeDigits? 2 cs
  return ((year, month, day), cs)

def fractionAtFront (cs : List Char) : Nat :=
  match takeChar? '.' cs with
  | none => 0
  | some cs =>
    let digits := (cs.take 3).takeWhile isDecimal
    decimalValue digits * tenPow (6 - digits.length)

def secondsAtFront (cs : List Char) : Nat × Nat :=
  match (takeChar? ':' cs).bind (takeDigits? 2) with
  | none => (0, 0)
  | some (second, cs) => (second, fractionAtFront cs)

def timeAtFront? (cs : List Char) : Option (Nat × Nat × Nat × Nat) := do
  let (hour, cs) ← takeDigits? 2 cs
  let cs ← takeChar? ':' cs
  let (minute, cs) ← takeDigits? 2 cs
  let (second, microsecond) := secondsAtFront cs
  return (hour, minute, second, microsecond)

def Time.ofFields? : Nat × Nat × Nat × Nat → Option Time
  | (hour, minute, second, microsecond) => Time.of? hour minute second microsecond

def Date.ofFields? : Nat × Nat × Nat → Option Date
  | (year, month, day) => Date.of? year month day

/-! ## Durations -/

def takePart? (unit : Char) (cs : List Char) : Option (Nat × List Char) := do
  let (digits, cs) ← takeNumber? cs
  let cs ← takeChar? unit cs
  return (decimalValue digits, cs)

def takePart (unit : Char) (cs : List Char) : Option Nat × List Char :=
  match takePart? unit cs with
  | some (n, cs) => (some n, cs)
  | none => (none, cs)

def secondsPart? (cs : List Char) : Option Decimal := do
  let (whole, cs) ← takeNumber? cs
  let (fraction, cs) :=
    match (takeChar? '.' cs).bind takeNumber? with
    | some (digits, rest) => if digits.length ≤ 3 then (digits, rest) else ([], cs)
    | none => ([], cs)
  let _ ← takeChar? 'S' cs
  return ⟨false, decimalValue (whole ++ fraction), -fraction.length⟩

/-- A duration from its parts. The seconds are read as a double, of which the fraction is turned into
microseconds by one multiplication of doubles. The sum is rounded to whole microseconds, a tie to
the even number. -/
def Duration.ofParts? (hours minutes : Nat) (seconds : Double) : Option Duration :=
  match seconds with
  | .finite _ m =>
    let (whole, rest) := Double.splitWhole m
    let million := Double.round false (1000000 * Magnitude.unitsPerOne) 1
    match (Double.round false rest 1).mul million with
    | .finite _ micros =>
      let exact := ((hours * 60 + minutes) * 60 + whole) * 1000000 * Magnitude.unitsPerOne
      Duration.ofMicroseconds? (Magnitude.nearest (exact + micros.units) Magnitude.unitsPerOne)
    | _ => none
  | _ => none

def readDuration (cs : List Char) : Except IsoError Duration :=
  match (takeChar? 'P' cs).bind (takeChar? 'T') with
  | none => .error .malformed
  | some cs =>
    let (hours, cs) := takePart 'H' cs
    let (minutes, cs) := takePart 'M' cs
    let seconds := secondsPart? cs
    if hours.isNone && minutes.isNone && seconds.isNone then .error .malformed
    else
      let inSeconds := (seconds.map Decimal.toDouble).getD (.zero false)
      match Duration.ofParts? (hours.getD 0) (minutes.getD 0) inSeconds with
      | some d => .ok d
      | none => .error .durationTooLong

/-! ## All of them -/

def Moment.ofIso (cs : List Char) : Except IsoError Moment :=
  let orMalformed (m : Option Moment) : Except IsoError Moment :=
    match m with
    | some m => .ok m
    | none => .error .malformed
  let afterT (cs : List Char) : List Char := (takeChar? 'T' cs).getD cs
  match takeDate? cs with
  | some (day, rest) =>
    match timeAtFront? (afterT rest) with
    | some clock => orMalformed do
        let d ← Date.ofFields? day
        let t ← Time.ofFields? clock
        return .dateTime ⟨d, t⟩
    | none => orMalformed ((Date.ofFields? day).map .date)
  | none =>
    match timeAtFront? (afterT cs) with
    | some clock => orMalformed ((Time.ofFields? clock).map .time)
    | none => (readDuration cs).map .duration

end Spreadsheet
