import Spreadsheet.Proofs.Calendar.Forms

/-!
# How moments are read

A text that starts with a date and a clock of numbers in range is read as a point in time, and so on for
the other three kinds of moments. A text is read in no other way, and only the parts of a duration can make
up too much.
-/

namespace Spreadsheet

theorem Date.of?_eq_some_iff {year month day : Nat} {d : Date} :
    Date.of? year month day = some d ↔ year = d.year ∧ month = d.month ∧ day = d.day := by
  constructor
  · intro h
    unfold Date.of? at h
    split at h
    · cases h
      exact ⟨rfl, rfl, rfl⟩
    · cases h
  · rintro ⟨rfl, rfl, rfl⟩
    exact d.of?_eq_some

theorem Time.of?_eq_some_iff {hour minute second microsecond : Nat} {t : Time} :
    Time.of? hour minute second microsecond = some t ↔
      hour = t.hour ∧ minute = t.minute ∧ second = t.second ∧ microsecond = t.microsecond := by
  constructor
  · intro h
    unfold Time.of? at h
    split at h
    · cases h
      exact ⟨rfl, rfl, rfl, rfl⟩
    · cases h
  · rintro ⟨rfl, rfl, rfl, rfl⟩
    exact t.of?_eq_some

def Date.AtFront (d : Date) (cs rest : List Char) : Prop :=
  DateAtFront cs d.year d.month d.day rest

def Time.Follows (t : Time) (cs : List Char) : Prop :=
  ClockFollows cs t.hour t.minute t.second t.microsecond

/-- Which moment the front of a text stands for. The clock decides, wherever there is one: a date and a
clock of numbers out of range stand for nothing, not even for the date. -/
inductive Moment.ReadFrom (cs : List Char) : Moment → Prop
  | dateTime {t : DateTime} {rest : List Char} (hdate : t.date.AtFront cs rest)
      (hclock : t.time.Follows rest) : ReadFrom cs (.dateTime t)
  | date {d : Date} {rest : List Char} (hdate : d.AtFront cs rest)
      (hclock : ∀ hour minute second microsecond, ¬ ClockFollows rest hour minute second microsecond) :
      ReadFrom cs (.date d)
  | time {t : Time} (hclock : t.Follows cs) : ReadFrom cs (.time t)
  | duration {d : Duration} {hours minutes : Option Nat} {seconds : Option Decimal}
      (hparts : DurationAtFront cs hours minutes seconds)
      (hvalue : Duration.ofWritten? hours minutes seconds = some d) : ReadFrom cs (.duration d)

theorem DurationAtFront.takeDate?_eq_none {cs : List Char} {hours minutes : Option Nat}
    {seconds : Option Decimal} (h : DurationAtFront cs hours minutes seconds) : takeDate? cs = none := by
  rw [takeDate?_eq_none_iff]
  rintro year month day rest ⟨years, months, days, ⟨hyears, -, -⟩, rfl, -⟩
  match years, hyears with
  | [a, _, _, _], hyears =>
    obtain rfl : a = 'P' := Option.some.inj h.head?_eq
    have ha := hyears.isDecimal 'P' List.mem_cons_self
    cases ha

theorem DurationAtFront.timeAtFront?_eq_none {cs : List Char} {hours minutes : Option Nat}
    {seconds : Option Decimal} (h : DurationAtFront cs hours minutes seconds) :
    timeAtFront? ((takeChar? 'T' cs).getD cs) = none := by
  rw [timeAtFront?_afterT_eq_none_iff]
  rintro hour minute second microsecond (hclock | ⟨rest, rfl, -⟩)
  · obtain ⟨c, hc, hdecimal⟩ := hclock.head?_isDecimal
    obtain rfl : 'P' = c := Option.some.inj (h.head?_eq.symm.trans hc)
    cases hdecimal
  · cases h.head?_eq

namespace Moment

theorem ReadFrom.ofIso_eq {cs : List Char} {m : Moment} (h : ReadFrom cs m) : ofIso cs = .ok m := by
  unfold ofIso
  dsimp only
  cases h with
  | @dateTime t rest hdate hclock =>
    rw [takeDate?_eq_some_iff.mpr hdate]
    dsimp only
    rw [timeAtFront?_afterT_eq_some_iff.mpr hclock]
    simp [Date.ofFields?, Time.ofFields?, Date.of?_eq_some, Time.of?_eq_some]
  | date hdate hclock =>
    rw [takeDate?_eq_some_iff.mpr hdate]
    dsimp only
    rw [timeAtFront?_afterT_eq_none_iff.mpr hclock]
    simp [Date.ofFields?, Date.of?_eq_some]
  -- A clock time cannot start a date, so the date branch has to fail first.
  | time hclock =>
    have hdate : takeDate? cs = none :=
      takeDate?_eq_none_iff.mpr fun _ _ _ _ hdate => hdate.not_clockFollows _ _ _ _ hclock
    rw [hdate]
    dsimp only
    rw [timeAtFront?_afterT_eq_some_iff.mpr hclock]
    simp [Time.ofFields?, Time.of?_eq_some]
  -- The P in front rules out both the date and the clock branch.
  | duration hparts hvalue =>
    rw [hparts.takeDate?_eq_none]
    dsimp only
    rw [hparts.timeAtFront?_eq_none]
    dsimp only
    rw [readDuration_of_durationAtFront hparts, hvalue]
    rfl

theorem ofIso_of_tooLong {cs : List Char} {hours minutes : Option Nat} {seconds : Option Decimal}
    (hparts : DurationAtFront cs hours minutes seconds)
    (hnone : Duration.ofWritten? hours minutes seconds = none) :
    ofIso cs = .error .durationTooLong := by
  unfold ofIso
  dsimp only
  rw [hparts.takeDate?_eq_none]
  dsimp only
  rw [hparts.timeAtFront?_eq_none]
  dsimp only
  rw [readDuration_of_durationAtFront hparts, hnone]
  rfl

/-- A text with the form of a date in front is read unless a number of the date or of the clock behind it
is out of range. -/
theorem readFrom_or_malformed_of_takeDate? {cs rest : List Char} {year month day : Nat}
    (h : takeDate? cs = some ((year, month, day), rest)) :
    (∃ m, ReadFrom cs m) ∨ ofIso cs = .error .malformed := by
  have hdate := takeDate?_eq_some_iff.mp h
  unfold ofIso
  dsimp only
  rw [h]
  dsimp only
  cases hd : Date.of? year month day with
  | none =>
    right
    split <;> simp [Date.ofFields?, hd]
  | some d =>
    obtain ⟨rfl, rfl, rfl⟩ := Date.of?_eq_some_iff.mp hd
    cases hclock : timeAtFront? ((takeChar? 'T' rest).getD rest) with
    | none => exact .inl ⟨_, .date hdate (timeAtFront?_afterT_eq_none_iff.mp hclock)⟩
    | some clock =>
      obtain ⟨hour, minute, second, microsecond⟩ := clock
      have hclock := timeAtFront?_afterT_eq_some_iff.mp hclock
      cases ht : Time.of? hour minute second microsecond with
      | none => simp [Time.ofFields?, ht]
      | some t =>
        obtain ⟨rfl, rfl, rfl, rfl⟩ := Time.of?_eq_some_iff.mp ht
        exact .inl ⟨.dateTime ⟨d, t⟩, .dateTime hdate hclock⟩

theorem readFrom_or_malformed_of_timeAtFront? {cs : List Char} {hour minute second microsecond : Nat}
    (hdate : takeDate? cs = none)
    (h : timeAtFront? ((takeChar? 'T' cs).getD cs) = some (hour, minute, second, microsecond)) :
    (∃ m, ReadFrom cs m) ∨ ofIso cs = .error .malformed := by
  have hclock := timeAtFront?_afterT_eq_some_iff.mp h
  unfold ofIso
  dsimp only
  rw [hdate]
  dsimp only
  rw [h]
  cases ht : Time.of? hour minute second microsecond with
  | none => simp [Time.ofFields?, ht]
  | some t =>
    obtain ⟨rfl, rfl, rfl, rfl⟩ := Time.of?_eq_some_iff.mp ht
    exact .inl ⟨_, .time hclock⟩

/-- Without a clock and without the numbers of a date or a time in range, there is only a duration that
keeps a text from being malformed. -/
theorem readFrom_or_tooLong_or_malformed (cs : List Char) :
    (∃ m, ReadFrom cs m) ∨
      (∃ hours minutes seconds, DurationAtFront cs hours minutes seconds ∧
        Duration.ofWritten? hours minutes seconds = none) ∨
      ofIso cs = .error .malformed := by
  -- The order of the cases is the order in which the reader tries the three forms.
  cases hdate : takeDate? cs with
  | some front => exact (readFrom_or_malformed_of_takeDate? hdate).imp_right .inr
  | none =>
    cases hclock : timeAtFront? ((takeChar? 'T' cs).getD cs) with
    | some clock => exact (readFrom_or_malformed_of_timeAtFront? hdate hclock).imp_right .inr
    | none =>
      by_cases hparts : ∃ hours minutes seconds, DurationAtFront cs hours minutes seconds
      · obtain ⟨hours, minutes, seconds, hparts⟩ := hparts
        cases hvalue : Duration.ofWritten? hours minutes seconds with
        | some d => exact .inl ⟨_, .duration hparts hvalue⟩
        | none => exact .inr (.inl ⟨hours, minutes, seconds, hparts, hvalue⟩)
      · have hmalformed : readDuration cs = .error .malformed :=
          readDuration_eq_malformed fun hours minutes seconds h => hparts ⟨hours, minutes, seconds, h⟩
        right; right
        unfold ofIso
        dsimp only
        rw [hdate]
        dsimp only
        rw [hclock]
        dsimp only
        rw [hmalformed]
        rfl

/-- The front of a text decides alone which moment is read, if one is. -/
theorem ofIso_eq_ok_iff {cs : List Char} {m : Moment} : ofIso cs = .ok m ↔ ReadFrom cs m := by
  refine ⟨fun h => ?_, ReadFrom.ofIso_eq⟩
  rcases readFrom_or_tooLong_or_malformed cs with ⟨m', hm'⟩ | ⟨hours, minutes, seconds, hparts, hnone⟩ |
    hmalformed
  · rw [hm'.ofIso_eq] at h
    cases h
    exact hm'
  · rw [ofIso_of_tooLong hparts hnone] at h
    cases h
  · rw [hmalformed] at h
    cases h

end Moment

end Spreadsheet
