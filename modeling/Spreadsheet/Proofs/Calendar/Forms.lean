import Mathlib.Data.List.TakeWhile
import Spreadsheet.Calendar.Iso
import Spreadsheet.Proofs.Number.Numerals

/-!
# The forms of dates, times and durations

What the readers take off the front of a text, said without them: dates, clocks and durations as rows of
digits with marks between them, each part as long as it can be. No text starts with two of the three.
-/

namespace Spreadsheet

open Text

/-! ## Rows of digits -/

structure AreDigits (n : Nat) (ds : List Char) : Prop where
  length_eq : ds.length = n
  isDecimal : ∀ c ∈ ds, isDecimal c = true

theorem takeChar?_eq_some_iff {c : Char} {cs rest : List Char} :
    takeChar? c cs = some rest ↔ cs = c :: rest := by
  cases cs with
  | nil => exact iff_of_false nofun nofun
  | cons d ds =>
    unfold takeChar?
    rw [Option.ite_none_right_eq_some, Option.some.injEq, List.cons.injEq]

theorem takeChar?_cons (c : Char) (cs : List Char) : takeChar? c (c :: cs) = some cs :=
  takeChar?_eq_some_iff.mpr rfl

theorem takeDigits?_eq_some_iff {n value : Nat} {cs rest : List Char} :
    takeDigits? n cs = some (value, rest) ↔
      ∃ ds, AreDigits n ds ∧ cs = ds ++ rest ∧ value = decimalValue ds := by
  unfold takeDigits?
  dsimp only
  rw [Option.ite_none_right_eq_some, Option.some.injEq, Prod.mk.injEq, Bool.and_eq_true,
    decide_eq_true_eq, List.all_eq_true]
  constructor
  · rintro ⟨⟨hlength, hdecimal⟩, rfl, rfl⟩
    exact ⟨cs.take n, ⟨hlength, hdecimal⟩, (List.take_append_drop n cs).symm, rfl⟩
  · rintro ⟨ds, ⟨rfl, hdecimal⟩, rfl, rfl⟩
    rw [List.take_left, List.drop_left]
    exact ⟨⟨rfl, hdecimal⟩, rfl, rfl⟩

theorem takeNumber?_eq_some_iff {cs ds rest : List Char} :
    takeNumber? cs = some (ds, rest) ↔
      IsNumber ds ∧ cs = ds ++ rest ∧ ∀ c ∈ rest.head?, isDecimal c = false := by
  have hcs : cs.takeWhile isDecimal ++ cs.dropWhile isDecimal = cs := List.takeWhile_append_dropWhile
  have htake : takeNumber? cs = if cs.takeWhile isDecimal = [] then none
      else some (cs.takeWhile isDecimal, cs.dropWhile isDecimal) := by
    unfold takeNumber?
    split
    · rename_i hnil
      rw [if_pos hnil]
    · rename_i hne
      rw [if_neg hne]
  rw [htake, Option.ite_none_left_eq_some, Option.some.injEq, Prod.mk.injEq]
  constructor
  · rintro ⟨hne, rfl, rfl⟩
    exact ⟨⟨hne, fun _ => List.mem_takeWhile_imp⟩, hcs.symm, head_dropWhile cs⟩
  · rintro ⟨⟨hne, hdecimal⟩, rfl, hrest⟩
    rw [takeWhile_append_of_head ds hrest, dropWhile_append_of_head ds hrest,
      List.takeWhile_eq_self_iff.mpr hdecimal, List.dropWhile_eq_nil_iff.mpr hdecimal]
    exact ⟨hne, rfl, rfl⟩

/-! ## Dates -/

def DateAtFront (cs : List Char) (year month day : Nat) (rest : List Char) : Prop :=
  ∃ years months days, (AreDigits 4 years ∧ AreDigits 2 months ∧ AreDigits 2 days) ∧
    cs = years ++ '-' :: (months ++ '-' :: (days ++ rest)) ∧
    year = decimalValue years ∧ month = decimalValue months ∧ day = decimalValue days

theorem takeDate?_eq_some_iff {cs rest : List Char} {year month day : Nat} :
    takeDate? cs = some ((year, month, day), rest) ↔ DateAtFront cs year month day rest := by
  simp only [takeDate?, Option.bind_eq_bind, Option.bind_eq_some_iff, Prod.exists,
    takeDigits?_eq_some_iff, takeChar?_eq_some_iff, Option.pure_def, Option.some.injEq, Prod.mk.injEq]
  constructor
  · rintro ⟨-, -, ⟨years, hyears, rfl, rfl⟩, -, rfl, -, -, ⟨months, hmonths, rfl, rfl⟩, -, rfl, -, -,
      ⟨days, hdays, rfl, rfl⟩, ⟨rfl, rfl, rfl⟩, rfl⟩
    exact ⟨years, months, days, ⟨hyears, hmonths, hdays⟩, rfl, rfl, rfl, rfl⟩
  · rintro ⟨years, months, days, ⟨hyears, hmonths, hdays⟩, rfl, rfl, rfl, rfl⟩
    exact ⟨_, _, ⟨years, hyears, rfl, rfl⟩, _, rfl, _, _, ⟨months, hmonths, rfl, rfl⟩, _, rfl, _, _,
      ⟨days, hdays, rfl, rfl⟩, ⟨rfl, rfl, rfl⟩, rfl⟩

theorem takeDate?_eq_none_iff {cs : List Char} :
    takeDate? cs = none ↔ ∀ year month day rest, ¬ DateAtFront cs year month day rest := by
  rw [Option.eq_none_iff_forall_ne_some]
  constructor
  · intro h year month day rest hdate
    exact h _ (takeDate?_eq_some_iff.mpr hdate)
  · rintro h ⟨⟨year, month, day⟩, rest⟩ hdate
    exact h year month day rest (takeDate?_eq_some_iff.mp hdate)

/-! ## Clocks -/

inductive FractionAtFront : List Char → Nat → Prop
  | present {ds rest : List Char} (hds : IsNumber ds) (hlength : ds.length ≤ 3)
      (hrest : ds.length = 3 ∨ ∀ c ∈ rest.head?, isDecimal c = false) :
      FractionAtFront ('.' :: (ds ++ rest)) (decimalValue ds * tenPow (6 - ds.length))
  | absent {cs : List Char} (h : ∀ c rest, isDecimal c = true → cs ≠ '.' :: c :: rest) :
      FractionAtFront cs 0

theorem FractionAtFront.fractionAtFront_eq {cs : List Char} {n : Nat} (h : FractionAtFront cs n) :
    fractionAtFront cs = n := by
  cases h with
  | @present ds rest hds hlength hrest =>
    have hdigits : ((ds ++ rest).take 3).takeWhile isDecimal = ds := by
      -- Fewer than three digits end in front of what follows, three of them end by themselves.
      rw [List.take_append, List.take_of_length_le hlength]
      have hhead : ∀ c ∈ (rest.take (3 - ds.length)).head?, isDecimal c = false := by
        intro c hc
        rcases hrest with hthree | hrest
        · rw [hthree] at hc
          cases hc
        · rw [List.head?_take] at hc
          split at hc
          · cases hc
          · exact hrest c hc
      rw [takeWhile_append_of_head ds hhead, List.takeWhile_eq_self_iff.mpr hds.isDecimal]
    unfold fractionAtFront
    rw [takeChar?_cons]
    dsimp only
    rw [hdigits]
  | absent h =>
    unfold fractionAtFront
    split
    · rfl
    · rename_i rest hpoint
      obtain rfl := takeChar?_eq_some_iff.mp hpoint
      cases rest with
      | nil => rfl
      | cons c rest =>
        have hc : isDecimal c = false := by
          rw [← Bool.not_eq_true]
          exact fun hc => h c rest hc rfl
        dsimp only
        rw [List.take_succ_cons, List.takeWhile_cons_of_neg (by simp [hc])]
        exact Nat.zero_mul _

theorem exists_fractionAtFront (cs : List Char) : ∃ n, FractionAtFront cs n := by
  by_cases hpoint : ∃ c rest, isDecimal c = true ∧ cs = '.' :: c :: rest
  · obtain ⟨c, rest, hc, rfl⟩ := hpoint
    -- The digits are those among the next three characters.
    have hsplit := List.takeWhile_append_dropWhile (p := isDecimal) (l := (c :: rest).take 3)
    have hlength : ((c :: rest).take 3).length ≤ 3 := List.length_take_le _ _
    have htext := List.take_append_drop 3 (c :: rest)
    have hnumber : IsNumber (((c :: rest).take 3).takeWhile isDecimal) := by
      refine ⟨?_, fun _ => List.mem_takeWhile_imp⟩
      rw [List.take_succ_cons, List.takeWhile_cons_of_pos hc]
      exact List.cons_ne_nil _ _
    have hnext : ∀ d ∈ (((c :: rest).take 3).dropWhile isDecimal).head?, isDecimal d = false :=
      head_dropWhile _
    generalize ((c :: rest).take 3).takeWhile isDecimal = ds at hsplit hnumber
    generalize ((c :: rest).take 3).dropWhile isDecimal = between at hsplit hnext
    rw [← hsplit, List.append_assoc] at htext
    rw [← hsplit, List.length_append] at hlength
    rw [← htext]
    refine ⟨_, .present hnumber (by omega) ?_⟩
    cases between with
    | cons d between =>
      right
      rintro _ ⟨⟩
      exact hnext d rfl
    | nil =>
      by_cases hthree : ds.length = 3
      · exact .inl hthree
      · right
        have hshort : (c :: rest).length ≤ 3 := by
          rw [List.append_nil] at hsplit
          have hds := congrArg List.length hsplit
          rw [List.length_take] at hds
          omega
        rw [List.drop_eq_nil_iff.mpr hshort]
        rintro d ⟨⟩
  · exact ⟨0, .absent fun c rest hc hcs => hpoint ⟨c, rest, hc, hcs⟩⟩

theorem fractionAtFront_eq_iff {cs : List Char} {n : Nat} :
    fractionAtFront cs = n ↔ FractionAtFront cs n := by
  constructor
  · rintro rfl
    obtain ⟨n, hn⟩ := exists_fractionAtFront cs
    rw [hn.fractionAtFront_eq]
    exact hn
  · exact FractionAtFront.fractionAtFront_eq

inductive SecondsAtFront : List Char → Nat → Nat → Prop
  | present {ds rest : List Char} {microsecond : Nat} (hds : AreDigits 2 ds)
      (hrest : FractionAtFront rest microsecond) :
      SecondsAtFront (':' :: (ds ++ rest)) (decimalValue ds) microsecond
  | absent {cs : List Char} (h : ∀ ds rest, AreDigits 2 ds → cs ≠ ':' :: (ds ++ rest)) :
      SecondsAtFront cs 0 0

theorem secondsAtFront_eq_iff {cs : List Char} {second microsecond : Nat} :
    secondsAtFront cs = (second, microsecond) ↔ SecondsAtFront cs second microsecond := by
  have hbind : ∀ n rest, (takeChar? ':' cs).bind (takeDigits? 2) = some (n, rest) ↔
      ∃ ds, AreDigits 2 ds ∧ cs = ':' :: (ds ++ rest) ∧ n = decimalValue ds := by
    intro n rest
    simp only [Option.bind_eq_some_iff, takeChar?_eq_some_iff, takeDigits?_eq_some_iff]
    constructor
    · rintro ⟨-, rfl, ds, hds, rfl, rfl⟩
      exact ⟨ds, hds, rfl, rfl⟩
    · rintro ⟨ds, hds, rfl, rfl⟩
      exact ⟨_, rfl, ds, hds, rfl, rfl⟩
  unfold secondsAtFront
  split
  · rename_i hnone
    -- Without a readable pair of digits nothing is consumed, which is the absent form only.
    have habsent : ∀ ds rest, AreDigits 2 ds → cs ≠ ':' :: (ds ++ rest) := by
      intro ds rest hds hcs
      have hsome := (hbind _ _).mpr ⟨ds, hds, hcs, rfl⟩
      rw [hnone] at hsome
      cases hsome
    rw [Prod.mk.injEq]
    constructor
    · rintro ⟨rfl, rfl⟩
      exact .absent habsent
    · rintro (⟨hds, -⟩ | -)
      · exact absurd rfl (habsent _ _ hds)
      · exact ⟨rfl, rfl⟩
  · rename_i n rest hsome
    obtain ⟨ds, hds, rfl, rfl⟩ := (hbind _ _).mp hsome
    rw [Prod.mk.injEq, fractionAtFront_eq_iff]
    constructor
    · rintro ⟨rfl, hfraction⟩
      exact .present hds hfraction
    · intro h
      -- The text is given twice, so the two readings are matched digit by digit.
      generalize hcs : ':' :: (ds ++ rest) = cs at h
      cases h with
      | present hds' hrest =>
        obtain ⟨rfl, rfl⟩ := List.append_inj (List.cons.inj hcs).2
          (hds.length_eq.trans hds'.length_eq.symm)
        exact ⟨rfl, hrest⟩
      | absent h => exact absurd hcs.symm (h _ _ hds)

def ClockAtFront (cs : List Char) (hour minute second microsecond : Nat) : Prop :=
  ∃ hours minutes rest, (AreDigits 2 hours ∧ AreDigits 2 minutes) ∧
    cs = hours ++ ':' :: (minutes ++ rest) ∧ hour = decimalValue hours ∧
    minute = decimalValue minutes ∧ SecondsAtFront rest second microsecond

theorem timeAtFront?_eq_some_iff {cs : List Char} {hour minute second microsecond : Nat} :
    timeAtFront? cs = some (hour, minute, second, microsecond) ↔
      ClockAtFront cs hour minute second microsecond := by
  simp only [timeAtFront?, Option.bind_eq_bind, Option.bind_eq_some_iff, Prod.exists,
    takeDigits?_eq_some_iff, takeChar?_eq_some_iff, Option.pure_def, Option.some.injEq, Prod.mk.injEq]
  constructor
  · rintro ⟨-, -, ⟨hours, hhours, rfl, rfl⟩, -, rfl, -, rest, ⟨minutes, hminutes, rfl, rfl⟩,
      rfl, rfl, rfl, rfl⟩
    exact ⟨hours, minutes, rest, ⟨hhours, hminutes⟩, rfl, rfl, rfl, secondsAtFront_eq_iff.mp rfl⟩
  · rintro ⟨hours, minutes, rest, ⟨hhours, hminutes⟩, rfl, rfl, rfl, hseconds⟩
    have heq := Prod.mk.inj (secondsAtFront_eq_iff.mpr hseconds)
    exact ⟨_, _, ⟨hours, hhours, rfl, rfl⟩, _, rfl, _, rest, ⟨minutes, hminutes, rfl, rfl⟩,
      rfl, rfl, heq.1, heq.2⟩

theorem ClockAtFront.head?_isDecimal {cs : List Char} {hour minute second microsecond : Nat}
    (h : ClockAtFront cs hour minute second microsecond) : ∃ c ∈ cs.head?, isDecimal c = true := by
  obtain ⟨hours, minutes, rest, ⟨hhours, -⟩, rfl, -⟩ := h
  match hours, hhours with
  | [_, _], hhours => exact ⟨_, rfl, hhours.isDecimal _ List.mem_cons_self⟩

def ClockFollows (cs : List Char) (hour minute second microsecond : Nat) : Prop :=
  ClockAtFront cs hour minute second microsecond ∨
    ∃ rest, cs = 'T' :: rest ∧ ClockAtFront rest hour minute second microsecond

theorem timeAtFront?_afterT_eq_some_iff {cs : List Char} {hour minute second microsecond : Nat} :
    timeAtFront? ((takeChar? 'T' cs).getD cs) = some (hour, minute, second, microsecond) ↔
      ClockFollows cs hour minute second microsecond := by
  cases hT : takeChar? 'T' cs with
  | none =>
    rw [Option.getD_none, timeAtFront?_eq_some_iff]
    refine ⟨.inl, ?_⟩
    rintro (hclock | ⟨rest, rfl, -⟩)
    · exact hclock
    · rw [takeChar?_cons] at hT
      cases hT
  | some rest =>
    obtain rfl := takeChar?_eq_some_iff.mp hT
    rw [Option.getD_some, timeAtFront?_eq_some_iff]
    refine ⟨fun hclock => .inr ⟨rest, rfl, hclock⟩, ?_⟩
    rintro (hclock | ⟨rest', hrest, hclock⟩)
    · -- No digit is a `T`.
      obtain ⟨_, ⟨⟩, hc⟩ := hclock.head?_isDecimal
      cases hc
    · rwa [(List.cons.inj hrest).2]

theorem timeAtFront?_afterT_eq_none_iff {cs : List Char} :
    timeAtFront? ((takeChar? 'T' cs).getD cs) = none ↔
      ∀ hour minute second microsecond, ¬ ClockFollows cs hour minute second microsecond := by
  rw [Option.eq_none_iff_forall_ne_some]
  constructor
  · intro h hour minute second microsecond hclock
    exact h _ (timeAtFront?_afterT_eq_some_iff.mpr hclock)
  · rintro h ⟨hour, minute, second, microsecond⟩ hclock
    exact h _ _ _ _ (timeAtFront?_afterT_eq_some_iff.mp hclock)

/-- The third character of a date is a digit, that of a clock a colon, and no digit is a `T`. -/
theorem DateAtFront.not_clockFollows {cs rest : List Char} {year month day : Nat}
    (h : DateAtFront cs year month day rest) (hour minute second microsecond : Nat) :
    ¬ ClockFollows cs hour minute second microsecond := by
  obtain ⟨years, months, days, ⟨hyears, -, -⟩, rfl, -⟩ := h
  match years, hyears with
  | [a, b, c, d], hyears =>
    rintro (⟨hours, minutes, rest', ⟨hhours, -⟩, hcs, -⟩ | ⟨rest', hcs, -⟩)
    · match hours, hhours with
      | [_, _], _ =>
        obtain rfl : c = ':' := (List.cons.inj (List.cons.inj (List.cons.inj hcs).2).2).1
        have hc := hyears.isDecimal ':' (by simp)
        cases hc
    · obtain rfl : a = 'T' := (List.cons.inj hcs).1
      have ha := hyears.isDecimal 'T' (by simp)
      cases ha

/-! ## Durations -/

inductive PartAtFront (unit : Char) : List Char → Option Nat → List Char → Prop
  | present {ds rest : List Char} (hds : IsNumber ds) :
      PartAtFront unit (ds ++ unit :: rest) (some (decimalValue ds)) rest
  | absent {cs : List Char} (h : ∀ ds rest, IsNumber ds → cs ≠ ds ++ unit :: rest) :
      PartAtFront unit cs none cs

section

variable {unit : Char} (hunit : isDecimal unit = false)

include hunit

theorem takePart?_eq_some_iff {cs rest : List Char} {n : Nat} :
    takePart? unit cs = some (n, rest) ↔
      ∃ ds, IsNumber ds ∧ cs = ds ++ unit :: rest ∧ n = decimalValue ds := by
  simp only [takePart?, Option.bind_eq_bind, Option.bind_eq_some_iff, Prod.exists,
    takeNumber?_eq_some_iff, takeChar?_eq_some_iff, Option.pure_def, Option.some.injEq, Prod.mk.injEq]
  constructor
  · rintro ⟨ds, -, ⟨hds, rfl, -⟩, -, rfl, rfl, rfl⟩
    exact ⟨ds, hds, rfl, rfl⟩
  · rintro ⟨ds, hds, rfl, rfl⟩
    exact ⟨ds, _, ⟨hds, rfl, by rintro _ ⟨⟩; exact hunit⟩, _, rfl, rfl, rfl⟩

theorem takePart_eq_iff {cs rest : List Char} {n : Option Nat} :
    takePart unit cs = (n, rest) ↔ PartAtFront unit cs n rest := by
  unfold takePart
  split
  · rename_i m rest' hsome
    -- A part that is not there consumes nothing, and only then is it not there.
    rw [Prod.mk.injEq]
    constructor
    · rintro ⟨rfl, rfl⟩
      obtain ⟨ds, hds, rfl, rfl⟩ := (takePart?_eq_some_iff hunit).mp hsome
      exact .present hds
    · rintro (hds | habsent)
      · rw [(takePart?_eq_some_iff hunit).mpr ⟨_, hds, rfl, rfl⟩] at hsome
        cases hsome
        exact ⟨rfl, rfl⟩
      · obtain ⟨ds, hds, hcs, -⟩ := (takePart?_eq_some_iff hunit).mp hsome
        exact absurd hcs (habsent _ _ hds)
  · rename_i hnone
    rw [Prod.mk.injEq]
    constructor
    · rintro ⟨rfl, rfl⟩
      refine .absent fun ds rest hds hcs => ?_
      rw [(takePart?_eq_some_iff hunit).mpr ⟨ds, hds, hcs, rfl⟩] at hnone
      cases hnone
    · rintro (hds | -)
      · rw [(takePart?_eq_some_iff hunit).mpr ⟨_, hds, rfl, rfl⟩] at hnone
        cases hnone
      · exact ⟨rfl, rfl⟩

end

def fractionPart (cs : List Char) : List Char × List Char :=
  match (takeChar? '.' cs).bind takeNumber? with
  | some (digits, rest) => if digits.length ≤ 3 then (digits, rest) else ([], cs)
  | none => ([], cs)

theorem secondsPart?_eq (cs : List Char) :
    secondsPart? cs = (takeNumber? cs).bind fun part =>
      (takeChar? 'S' (fractionPart part.2).2).map fun _ =>
        ⟨false, decimalValue (part.1 ++ (fractionPart part.2).1), -(fractionPart part.2).1.length⟩ := by
  unfold secondsPart?
  simp only [Option.map_eq_bind]
  rfl

theorem fractionPart_eq_iff {cs fs rest : List Char} :
    fractionPart cs = (fs, 'S' :: rest) ↔
      (fs = [] ∧ cs = 'S' :: rest) ∨
        (IsNumber fs ∧ fs.length ≤ 3 ∧ cs = '.' :: (fs ++ 'S' :: rest)) := by
  have hpoint : ∀ {fs rest}, (takeChar? '.' cs).bind takeNumber? = some (fs, rest) ↔
      IsNumber fs ∧ cs = '.' :: (fs ++ rest) ∧ ∀ c ∈ rest.head?, isDecimal c = false := by
    intro fs rest
    simp only [Option.bind_eq_some_iff, takeChar?_eq_some_iff, takeNumber?_eq_some_iff]
    constructor
    · rintro ⟨-, rfl, hfs, rfl, hrest⟩
      exact ⟨hfs, rfl, hrest⟩
    · rintro ⟨hfs, rfl, hrest⟩
      exact ⟨_, rfl, hfs, rfl, hrest⟩
  constructor
  · intro h
    unfold fractionPart at h
    split at h
    · rename_i digits rest' hsome
      obtain ⟨hdigits, hcs, -⟩ := hpoint.mp hsome
      split at h
      · rename_i hlength
        cases h
        exact .inr ⟨hdigits, hlength, hcs⟩
      · -- The text starts with the point and not with the letter.
        cases h
        cases hcs
    · cases h
      exact .inl ⟨rfl, rfl⟩
  · rintro (⟨rfl, rfl⟩ | ⟨hfs, hlength, hcs⟩)
    · rfl
    · unfold fractionPart
      rw [hpoint.mpr ⟨hfs, hcs, by rintro _ ⟨⟩; rfl⟩]
      exact if_pos hlength

inductive DecimalAtFront : List Char → Decimal → Prop
  | whole {ds rest : List Char} (hds : IsNumber ds) :
      DecimalAtFront (ds ++ 'S' :: rest) ⟨false, decimalValue ds, 0⟩
  | fraction {ds fs rest : List Char} (hds : IsNumber ds) (hfs : IsNumber fs)
      (hlength : fs.length ≤ 3) :
      DecimalAtFront (ds ++ '.' :: (fs ++ 'S' :: rest)) ⟨false, decimalValue (ds ++ fs), -fs.length⟩

theorem secondsPart?_eq_some_iff {cs : List Char} {d : Decimal} :
    secondsPart? cs = some d ↔ DecimalAtFront cs d := by
  rw [secondsPart?_eq]
  constructor
  · intro h
    obtain ⟨⟨ds, rest⟩, htake, hpart⟩ := Option.bind_eq_some_iff.mp h
    obtain ⟨hds, rfl, -⟩ := takeNumber?_eq_some_iff.mp htake
    obtain ⟨rest', hS, rfl⟩ := Option.map_eq_some_iff.mp hpart
    have hpair : fractionPart rest = ((fractionPart rest).1, 'S' :: rest') :=
      Prod.ext rfl (takeChar?_eq_some_iff.mp hS)
    have hfraction := fractionPart_eq_iff.mp hpair
    dsimp only
    generalize (fractionPart rest).1 = fs at hfraction
    rcases hfraction with ⟨rfl, rfl⟩ | ⟨hfs, hlength, rfl⟩
    · rw [List.append_nil]
      exact .whole hds
    · exact .fraction hds hfs hlength
  · rintro (@⟨ds, rest, hds⟩ | @⟨ds, fs, rest, hds, hfs, hlength⟩)
    · rw [takeNumber?_eq_some_iff.mpr ⟨hds, rfl, by rintro _ ⟨⟩; rfl⟩, Option.bind_some,
        fractionPart_eq_iff.mpr (.inl ⟨rfl, rfl⟩), takeChar?_cons, List.append_nil]
      rfl
    · rw [takeNumber?_eq_some_iff.mpr ⟨hds, rfl, by rintro _ ⟨⟩; rfl⟩, Option.bind_some,
        fractionPart_eq_iff.mpr (.inr ⟨hfs, hlength, rfl⟩), takeChar?_cons]
      rfl

def DurationAtFront (cs : List Char) (hours minutes : Option Nat) (seconds : Option Decimal) : Prop :=
  ∃ front middle back, cs = 'P' :: 'T' :: front ∧ PartAtFront 'H' front hours middle ∧
    PartAtFront 'M' middle minutes back ∧ (∀ d, seconds = some d ↔ DecimalAtFront back d) ∧
    ¬ (hours = none ∧ minutes = none ∧ seconds = none)

theorem DurationAtFront.head?_eq {cs : List Char} {hours minutes : Option Nat}
    {seconds : Option Decimal} (h : DurationAtFront cs hours minutes seconds) : cs.head? = some 'P' := by
  obtain ⟨front, -, -, rfl, -⟩ := h
  rfl

def Duration.ofWritten? (hours minutes : Option Nat) (seconds : Option Decimal) : Option Duration :=
  Duration.ofParts? (hours.getD 0) (minutes.getD 0) ((seconds.map Decimal.toDouble).getD (.zero false))

theorem readDuration_of_durationAtFront {cs : List Char} {hours minutes : Option Nat}
    {seconds : Option Decimal} (h : DurationAtFront cs hours minutes seconds) :
    readDuration cs =
      match Duration.ofWritten? hours minutes seconds with
      | some d => .ok d
      | none => .error .durationTooLong := by
  obtain ⟨front, middle, back, rfl, hhours, hminutes, hseconds, hsome⟩ := h
  have hback : secondsPart? back = seconds :=
    Option.ext fun d => secondsPart?_eq_some_iff.trans (hseconds d).symm
  have hfound : (hours.isNone && minutes.isNone && seconds.isNone) = false := by
    rw [← Bool.not_eq_true]
    simpa [and_assoc] using hsome
  unfold readDuration
  rw [takeChar?_cons, Option.bind_some, takeChar?_cons]
  dsimp only
  rw [(takePart_eq_iff rfl).mpr hhours]
  dsimp only
  rw [(takePart_eq_iff rfl).mpr hminutes]
  dsimp only
  rw [hback, hfound]
  rfl

theorem readDuration_eq_malformed {cs : List Char}
    (h : ∀ hours minutes seconds, ¬ DurationAtFront cs hours minutes seconds) :
    readDuration cs = .error .malformed := by
  unfold readDuration
  split
  · rfl
  · rename_i front hfront
    obtain ⟨rest, hP, hT⟩ := Option.bind_eq_some_iff.mp hfront
    rw [takeChar?_eq_some_iff] at hP hT
    subst hP hT
    have hnone : ¬ DurationAtFront ('P' :: 'T' :: front) (takePart 'H' front).1
        (takePart 'M' (takePart 'H' front).2).1
        (secondsPart? (takePart 'M' (takePart 'H' front).2).2) := h _ _ _
    -- Were one of the parts there, the text would have the form of a duration.
    have hall : (takePart 'H' front).1 = none ∧ (takePart 'M' (takePart 'H' front).2).1 = none ∧
        secondsPart? (takePart 'M' (takePart 'H' front).2).2 = none := by
      by_contra hsome
      exact hnone ⟨front, _, _, rfl, (takePart_eq_iff rfl).mp rfl, (takePart_eq_iff rfl).mp rfl,
        fun d => secondsPart?_eq_some_iff, hsome⟩
    dsimp only
    rw [hall.1, hall.2.1, hall.2.2]
    rfl

end Spreadsheet
