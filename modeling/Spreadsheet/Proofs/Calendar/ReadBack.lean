import Spreadsheet.Proofs.Calendar.Reading
import Spreadsheet.Proofs.Json.Numbers
import Spreadsheet.Storage

/-!
# Days and points in time are read back

The text of a day is read as this day. The text of a point in time has a space between its date and its
clock, and there it ends for the reader: what comes back is the day without the clock. Behind a `T` the
clock would be read too, to the millisecond.
-/

namespace Spreadsheet

open Text

/-! ## Digits with zeros in front -/

theorem areDigits_padded {width n : Nat} (hwidth : 0 < width) (h : n < tenPow width) :
    AreDigits width (padded width n) where
  length_eq := by
    have hlength : (Nat.toDigits 10 n).length ≤ width := Double.decimalLength_le hwidth h
    unfold padded
    rw [List.length_append, List.length_replicate]
    omega
  isDecimal c hc := by
    rcases List.mem_append.mp hc with hzero | hdigit
    · rw [(List.mem_replicate.mp hzero).2]
      rfl
    · exact isDecimal_of_isPlainDigit (isPlainDigit_of_mem_toDigits hdigit)

theorem decimalValue_padded (width n : Nat) : decimalValue (padded width n) = n := by
  unfold padded
  rw [Json.decimalValue_zeros_append, decimalValue_toDigits]

/-! ## Dates and clocks -/

theorem daysInMonth_le (year month : Nat) : daysInMonth year month ≤ 31 := by
  unfold daysInMonth
  repeat' split
  all_goals decide

theorem Date.atFront_iso (d : Date) (rest : List Char) : d.AtFront (d.iso ++ rest) rest := by
  have hyear := d.year_mem
  have hmonth := d.month_mem
  have hday := d.day_mem
  have hdays := daysInMonth_le d.year d.month
  refine ⟨padded 4 d.year, padded 2 d.month, padded 2 d.day, ⟨?_, ?_, ?_⟩, ?_, ?_, ?_, ?_⟩
  · exact areDigits_padded (by decide) (Nat.lt_of_le_of_lt hyear.2 (by decide))
  · exact areDigits_padded (by decide) (Nat.lt_of_le_of_lt hmonth.2 (by decide))
  · exact areDigits_padded (by decide) (Nat.lt_of_le_of_lt (hday.2.trans hdays) (by decide))
  · simp [Date.iso]
  all_goals exact (decimalValue_padded _ _).symm

namespace Time

variable (t : Time)

def inMilliseconds : Time :=
  { t with
    microsecond := t.microsecond / 1000 * 1000
    microsecond_lt := by
      have := t.microsecond_lt
      omega }

theorem inMilliseconds_eq_iff : t.inMilliseconds = t ↔ t.microsecond % 1000 = 0 := by
  have hsplit := Nat.div_add_mod t.microsecond 1000
  constructor
  · intro h
    have hmicrosecond : t.microsecond / 1000 * 1000 = t.microsecond := congrArg microsecond h
    omega
  · intro h
    have hmicrosecond : t.microsecond / 1000 * 1000 = t.microsecond := by omega
    cases t
    simpa [inMilliseconds] using hmicrosecond

theorem areDigits_hour : AreDigits 2 (padded 2 t.hour) :=
  areDigits_padded (by decide) (Nat.lt_trans t.hour_lt (by decide))

theorem fractionAtFront_milliseconds :
    FractionAtFront (if t.microsecond = 0 then [] else '.' :: padded 3 (t.microsecond / 1000))
      t.inMilliseconds.microsecond := by
  have hlt := t.microsecond_lt
  -- Whole seconds are printed without a fraction; anything else gets three digits, whatever they
  -- are.
  by_cases hzero : t.microsecond = 0
  · have hnone : t.inMilliseconds.microsecond = 0 := by simp [inMilliseconds, hzero]
    rw [if_pos hzero, hnone]
    exact .absent (by simp)
  · have hdigits : AreDigits 3 (padded 3 (t.microsecond / 1000)) :=
      areDigits_padded (by decide) (show _ < 1000 by omega)
    have hnumber : IsNumber (padded 3 (t.microsecond / 1000)) :=
      ⟨List.ne_nil_of_length_pos (by rw [hdigits.length_eq]; decide), hdigits.isDecimal⟩
    have hvalue : t.inMilliseconds.microsecond =
        decimalValue (padded 3 (t.microsecond / 1000)) *
          tenPow (6 - (padded 3 (t.microsecond / 1000)).length) := by
      rw [decimalValue_padded, hdigits.length_eq]
      rfl
    have hfraction : FractionAtFront ('.' :: (padded 3 (t.microsecond / 1000) ++ []))
        (decimalValue (padded 3 (t.microsecond / 1000)) *
          tenPow (6 - (padded 3 (t.microsecond / 1000)).length)) :=
      .present hnumber (Nat.le_of_eq hdigits.length_eq) (.inl hdigits.length_eq)
    rw [List.append_nil] at hfraction
    rw [if_neg hzero, hvalue]
    exact hfraction

theorem clockAtFront_isoMilliseconds :
    ClockAtFront t.isoMilliseconds t.hour t.minute t.second t.inMilliseconds.microsecond := by
  have hminute : AreDigits 2 (padded 2 t.minute) :=
    areDigits_padded (by decide) (Nat.lt_trans t.minute_lt (by decide))
  have hsecond : AreDigits 2 (padded 2 t.second) :=
    areDigits_padded (by decide) (Nat.lt_trans t.second_lt (by decide))
  have hseconds := SecondsAtFront.present hsecond t.fractionAtFront_milliseconds
  rw [decimalValue_padded] at hseconds
  refine ⟨padded 2 t.hour, padded 2 t.minute, _, ⟨t.areDigits_hour, hminute⟩, ?_,
    (decimalValue_padded _ _).symm, (decimalValue_padded _ _).symm, hseconds⟩
  simp only [isoMilliseconds, clock, List.append_assoc, List.cons_append]

/-- Behind anything but a `T` the clock is not found: its third character is no colon. -/
theorem not_clockFollows_isoMilliseconds {separator : Char} (h : separator ≠ 'T')
    (hour minute second microsecond : Nat) :
    ¬ ClockFollows (separator :: t.isoMilliseconds) hour minute second microsecond := by
  rintro (⟨hours, minutes, rest, ⟨hhours, -⟩, hcs, -⟩ | ⟨rest, hcs, -⟩)
  · have hdigits := t.areDigits_hour
    unfold isoMilliseconds clock at hcs
    generalize padded 2 t.hour = ds at hcs hdigits
    match hours, hhours, ds, hdigits with
    | [_, _], _, [_, b], hdigits =>
      obtain rfl : b = ':' := (List.cons.inj (List.cons.inj (List.cons.inj hcs).2).2).1
      have hb := hdigits.isDecimal ':' (by simp)
      cases hb
  · exact h (List.cons.inj hcs).1

end Time

namespace DateTime

def separated (t : DateTime) (separator : Char) : List Char :=
  t.date.iso ++ separator :: t.time.isoMilliseconds

theorem ofIso_separated (t : DateTime) (separator : Char) :
    Moment.ofIso (t.separated separator) =
      .ok (if separator = 'T' then .dateTime ⟨t.date, t.time.inMilliseconds⟩ else .date t.date) := by
  rw [Moment.ofIso_eq_ok_iff]
  unfold separated
  split
  · rename_i h
    subst h
    exact .dateTime (t.date.atFront_iso _) (.inr ⟨_, rfl, t.time.clockAtFront_isoMilliseconds⟩)
  · rename_i h
    exact .date (t.date.atFront_iso _) (t.time.not_clockFollows_isoMilliseconds h)

end DateTime

theorem Date.ofIso_iso (d : Date) : Moment.ofIso d.iso = .ok (.date d) := by
  rw [Moment.ofIso_eq_ok_iff]
  have hfront := d.atFront_iso []
  rw [List.append_nil] at hfront
  refine .date hfront fun hour minute second microsecond hclock => ?_
  rcases hclock with hclock | ⟨rest, hrest, -⟩
  · obtain ⟨c, hc, -⟩ := hclock.head?_isDecimal
    cases hc
  · cases hrest

namespace Content

/-! ## Stored texts -/

theorem ofStored_eq_ofStoredKind {kind : String} {k : StoredKind} {s : String}
    (hkind : StoredKind.ofName? kind = some k) (h : s ≠ "") :
    ofStored kind (some s) = ofStoredKind k s := by
  have hempty : s.isEmpty = false := by simpa using h
  show (if s.isEmpty = true then _ else _) = _
  rw [hempty, hkind]
  rfl

theorem ofStored_date {cs : List Char} {m : Moment} (h : Moment.ofIso cs = .ok m) :
    ofStored "date" (some (String.ofList cs)) = .ok (.moment m) := by
  have hne : String.ofList cs ≠ "" := by
    intro hempty
    obtain rfl : cs = [] := by simpa using hempty
    cases h
  rw [ofStored_eq_ofStoredKind rfl hne]
  unfold ofStoredKind
  dsimp only
  rw [String.toList_ofList, h]

/-- Every day is read back from its text. From the text of a point in time only its day is read, and with
another character in the place of the space the point in time comes back only with a `T` and only if it is
a whole number of milliseconds. -/
theorem ofStored_date_display (d : Date) (t : DateTime) :
    (∃ s, display (.moment (.date d)) = .ok s ∧
      ofStored "date" (some s) = .ok (.moment (.date d))) ∧
    display (.moment (.dateTime t)) = .ok (String.ofList (t.separated ' ')) ∧
    ofStored "date" (some (String.ofList (t.separated ' '))) = .ok (.moment (.date t.date)) ∧
    ∀ separator, ofStored "date" (some (String.ofList (t.separated separator))) =
      .ok (.moment (.dateTime t)) ↔ separator = 'T' ∧ t.time.microsecond % 1000 = 0 := by
  refine ⟨⟨_, rfl, ofStored_date d.ofIso_iso⟩, rfl, ?_, fun separator => ?_⟩
  · exact ofStored_date (t.ofIso_separated ' ')
  · rw [ofStored_date (t.ofIso_separated separator), Except.ok.injEq, Content.moment.injEq]
    split
    · rename_i h
      have htime : (⟨t.date, t.time.inMilliseconds⟩ : DateTime) = t ↔ t.time.inMilliseconds = t.time := by
        cases t
        simp
      rw [Moment.dateTime.injEq, htime, Time.inMilliseconds_eq_iff, and_iff_right h]
    · rename_i h
      exact iff_of_false nofun fun hboth => h hboth.1

/-- Half past twelve on the first of March 2024 comes back as the day. -/
theorem ofStored_half_past_twelve :
    ¬ ∀ t : DateTime, t.time.microsecond = 0 →
      ∃ s, display (.moment (.dateTime t)) = .ok s ∧
        ofStored "date" (some s) = .ok (.moment (.dateTime t)) := by
  intro h
  let t : DateTime :=
    ⟨⟨2024, 3, 1, by decide, by decide, by decide⟩,
      ⟨12, 30, 0, 0, by decide, by decide, by decide, by decide⟩⟩
  obtain ⟨s, hs, hread⟩ := h t rfl
  cases hs
  have hday : ofStored "date" (some (Moment.dateTime t).display) = .ok (.moment (.date t.date)) :=
    ofStored_date (t.ofIso_separated ' ')
  rw [hday] at hread
  cases hread

end Content

end Spreadsheet
