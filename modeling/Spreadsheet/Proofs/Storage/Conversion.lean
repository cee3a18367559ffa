import Spreadsheet.Proofs.Calendar.Durations
import Spreadsheet.Proofs.Calendar.ReadBack

/-!
# Reading stored texts as values

A stored text of a kind other than that of formulas is read as the value that it spells, and a text that
spells none is a blank. Only two sorts of texts cannot be read at all: whole numbers of too many digits and
durations beyond the greatest one.
-/

namespace Spreadsheet

open Text

theorem getLast?_trim (cs : List Char) : (trim cs).getLast? ≠ some '\n' := by
  intro h
  unfold trim trimEnd at h
  rw [List.getLast?_reverse] at h
  have hspace : isSpace '\n' = false := head_dropWhile _ '\n' h
  cases hspace

namespace Content

/-- The value that a text spells as a content of a kind. White space around a number does not matter, nor
do capital letters in a word for a truth value, nor does what follows a moment. -/
inductive Converts : StoredKind → String → Content → Prop
  | text {s : String} (h : s ≠ "") : Converts .text s (.text s)
  | number {s : String} {n : Numeral} (hn : n.WellFormed) (hs : trim s.toList = n.spelling) :
      Converts .number s (.number n.value)
  | yes {s : String} (h : s.toLower ∈ ["true", "yes", "on", "1"]) : Converts .boolean s (.bool true)
  | no {s : String} (h : s.toLower ∈ ["false", "no", "0"]) : Converts .boolean s (.bool false)
  | date {s : String} {m : Moment} (h : m.ReadFrom s.toList) : Converts .date s (.moment m)

inductive Overflows : StoredKind → String → ReadError → Prop
  | number {s : String} {n : Numeral} (hn : n.WellFormed) (hs : trim s.toList = n.spelling)
      (hlong : n.IsTooLong) : Overflows .number s (.badNumber (.tooManyDigits n.whole.length))
  | date {s : String} (h : SpellsTooLong s.toList) : Overflows .date s .durationTooLong

theorem ofStoredKind_number {s : String} {n : Numeral} (hn : n.WellFormed)
    (hs : trim s.toList = n.spelling) :
    ofStoredKind .number s =
      ((Number.read (String.ofList n.spelling)).map Content.number).mapError ReadError.badNumber := by
  have hnumeral := (isNumeral_iff (getLast?_trim s.toList)).mpr ⟨n, hn, hs⟩
  unfold ofStoredKind
  dsimp only
  rw [if_pos hnumeral, hs]
  cases Number.read (String.ofList n.spelling) <;> rfl

theorem ofStoredKind_boolean (s : String) :
    ofStoredKind .boolean s =
      match booleanOfWord? s.toLower with
      | some value => .ok (.bool value)
      | none => .ok .blank := rfl

theorem ofStoredKind_date (s : String) :
    ofStoredKind .date s =
      match Moment.ofIso s.toList with
      | .ok m => .ok (.moment m)
      | .error .malformed => .ok .blank
      | .error .durationTooLong => .error .durationTooLong := rfl

theorem Overflows.ofStoredKind_eq {k : StoredKind} {s : String} {e : ReadError}
    (h : Overflows k s e) : ofStoredKind k s = .error e := by
  cases h with
  | number hn hs hlong =>
    rw [ofStoredKind_number hn hs, hn.read_of_isTooLong hlong]
    rfl
  | date h => rw [ofStoredKind_date, Moment.ofIso_eq_durationTooLong_iff.mpr h]

theorem Converts.ofStoredKind_eq {k : StoredKind} {s : String} {c : Content} (h : Converts k s c)
    (hfits : ∀ e, ¬ Overflows k s e) : ofStoredKind k s = .ok c := by
  cases h with
  | text h => rfl
  | number hn hs =>
    rw [ofStoredKind_number hn hs,
      hn.read_of_not_isTooLong fun hlong => hfits _ (.number hn hs hlong)]
    rfl
  | yes h =>
    have hwords : ∀ word ∈ ["true", "yes", "on", "1"], booleanOfWord? word = some true := by decide
    rw [ofStoredKind_boolean, hwords _ h]
  | no h =>
    have hwords : ∀ word ∈ ["false", "no", "0"], booleanOfWord? word = some false := by decide
    rw [ofStoredKind_boolean, hwords _ h]
  | date h => rw [ofStoredKind_date, h.ofIso_eq]

/-- Of all kinds but that of formulas, what spells nothing is a blank. -/
theorem ofStoredKind_eq_blank {k : StoredKind} {s : String} (hk : k ≠ .formula) (hs : s ≠ "")
    (hnone : ∀ c, ¬ Converts k s c) (hfits : ∀ e, ¬ Overflows k s e) :
    ofStoredKind k s = .ok .blank := by
  -- Every kind has one way to convert and one to overflow; what does neither is blank.
  cases k with
  | text => exact absurd (.text hs) (hnone _)
  | number =>
    have hnumeral : isNumeral (trim s.toList) ≠ true := by
      rw [Ne, isNumeral_iff (getLast?_trim s.toList)]
      rintro ⟨n, hn, hspelling⟩
      exact hnone _ (.number hn hspelling)
    exact if_neg hnumeral
  | boolean =>
    have hyes : ["true", "yes", "on", "1"].contains s.toLower ≠ true :=
      fun h => hnone _ (.yes (List.contains_iff_mem.mp h))
    have hno : ["false", "no", "0"].contains s.toLower ≠ true :=
      fun h => hnone _ (.no (List.contains_iff_mem.mp h))
    rw [ofStoredKind_boolean]
    unfold booleanOfWord?
    rw [if_neg hyes, if_neg hno]
  | date =>
    rw [ofStoredKind_date]
    cases hread : Moment.ofIso s.toList with
    | ok m => exact absurd (.date (Moment.ofIso_eq_ok_iff.mp hread)) (hnone _)
    | error e =>
      cases e with
      | malformed => rfl
      | durationTooLong =>
        exact absurd (.date (Moment.ofIso_eq_durationTooLong_iff.mp hread)) (hfits _)
  | formula => exact absurd rfl hk

theorem ofStoredKind_eq_error_iff {k : StoredKind} {s : String} {e : ReadError} (hk : k ≠ .formula)
    (hs : s ≠ "") : ofStoredKind k s = .error e ↔ Overflows k s e := by
  refine ⟨fun h => ?_, Overflows.ofStoredKind_eq⟩
  -- What is not too much is read as a value or as a blank, and neither is an error.
  by_cases hany : ∃ e', Overflows k s e'
  · obtain ⟨e', he'⟩ := hany
    have heq := he'.ofStoredKind_eq.symm.trans h
    cases heq
    exact he'
  · have hfits : ∀ e, ¬ Overflows k s e := not_exists.mp hany
    by_cases hsome : ∃ c, Converts k s c
    · obtain ⟨c, hc⟩ := hsome
      rw [hc.ofStoredKind_eq hfits] at h
      cases h
    · rw [ofStoredKind_eq_blank hk hs (not_exists.mp hsome) hfits] at h
      cases h

/-- No text and an empty text are blanks of all kinds. Another text is read as what it spells, and it is a
blank if it spells nothing. Reading fails for the texts that are too much and for no others. -/
theorem ofStored_outcome {kind : String} {k : StoredKind} (hkind : StoredKind.ofName? kind = some k)
    (hk : k ≠ .formula) :
    ofStored kind none = .ok .blank ∧ ofStored kind (some "") = .ok .blank ∧
      ∀ s, s ≠ "" →
        (∀ e, ofStored kind (some s) = .error e ↔ Overflows k s e) ∧
        ((∀ e, ¬ Overflows k s e) →
          (∀ c, Converts k s c → ofStored kind (some s) = .ok c) ∧
          ((∀ c, ¬ Converts k s c) → ofStored kind (some s) = .ok .blank)) := by
  refine ⟨rfl, rfl, fun s hs => ?_⟩
  rw [ofStored_eq_ofStoredKind hkind hs]
  exact ⟨fun e => ofStoredKind_eq_error_iff hk hs, fun hfits =>
    ⟨fun c hc => hc.ofStoredKind_eq hfits, fun hnone => ofStoredKind_eq_blank hk hs hnone hfits⟩⟩

def leapDay : Date :=
  ⟨2024, 2, 29, by decide, by decide, by decide⟩

/-- A number between spaces, a word in any letters and a date are values, and another word is a blank. -/
theorem ofStored_on :
    ofStored "number" (some " -12 ") = .ok (.integer (-12)) ∧
      ofStored "boolean" (some "On") = .ok (.bool true) ∧
      ofStored "boolean" (some "maybe") = .ok .blank ∧
      ofStored "date" (some "2024-02-29") = .ok (.moment (.date leapDay)) := by
  refine ⟨?_, ?_, ?_, ?_⟩
  · have hkind : StoredKind.ofName? "number" = some .number := rfl
    have hnumeral : Numeral.WellFormed ⟨some true, ['1', '2'], none, none⟩ :=
      ⟨List.forall_mem_cons.mpr ⟨rfl, List.forall_mem_singleton.mpr rfl⟩, nofun, nofun, nofun⟩
    have hfits : ∀ e, ¬ Overflows .number " -12 " e := by
      rintro _ @⟨_, n, -, hs, -, hlong⟩
      have hlength : 3 = n.spelling.length := congrArg List.length hs
      simp only [Numeral.spelling, List.length_append] at hlength
      exact absurd hlong (by simp only [maxDigits]; omega)
    have houtcome := (ofStored_outcome hkind (by decide)).2.2 " -12 " (by decide)
    exact (houtcome.2 hfits).1 _ (.number hnumeral rfl)
  · have hkind : StoredKind.ofName? "boolean" = some .boolean := rfl
    have hon : "On".toLower ∈ ["true", "yes", "on", "1"] := by decide +kernel
    have houtcome := (ofStored_outcome hkind (by decide)).2.2 "On" (by decide)
    exact (houtcome.2 (by rintro _ ⟨⟩)).1 _ (.yes hon)
  · have hkind : StoredKind.ofName? "boolean" = some .boolean := rfl
    have hmaybe : "maybe".toLower ∉ ["true", "yes", "on", "1"] ∧
        "maybe".toLower ∉ ["false", "no", "0"] := by decide +kernel
    have houtcome := (ofStored_outcome hkind (by decide)).2.2 "maybe" (by decide)
    refine (houtcome.2 (by rintro _ ⟨⟩)).2 ?_
    rintro _ (_ | _ | hyes | hno | _)
    · exact hmaybe.1 hyes
    · exact hmaybe.2 hno
  · have hkind : StoredKind.ofName? "date" = some .date := rfl
    have hdate : Moment.ofIso "2024-02-29".toList = .ok (.date leapDay) := rfl
    have hfits : ∀ e, ¬ Overflows .date "2024-02-29" e := by
      rintro _ (_ | hlong)
      cases hdate.symm.trans (Moment.ofIso_eq_durationTooLong_iff.mpr hlong)
    have houtcome := (ofStored_outcome hkind (by decide)).2.2 "2024-02-29" (by decide)
    exact (houtcome.2 hfits).1 _ (.date (Moment.ofIso_eq_ok_iff.mp hdate))

theorem overflows_of_isDecimal {digits : List Char} (h : ∀ c ∈ digits, isDecimal c = true)
    (hlong : maxDigits < digits.length) :
    Overflows .number (String.ofList digits) (.badNumber (.tooManyDigits digits.length)) := by
  have hne : digits ++ [] ≠ [] := by
    rw [List.append_nil]
    exact List.ne_nil_of_length_pos (Nat.lt_of_le_of_lt (Nat.zero_le _) hlong)
  have hnumeral : Numeral.WellFormed ⟨none, digits, none, none⟩ := ⟨h, nofun, hne, nofun⟩
  refine .number hnumeral ?_ ⟨rfl, hlong⟩
  have hspace : ∀ c ∈ digits, isSpace c = false :=
    fun c hc => isSpace_of_isNamePart (isNamePart_of_isDecimal (h c hc))
  have htrim : trim digits = digits := dropWhile_ends_eq_self hspace
  rw [String.toList_ofList, htrim]
  simp [Numeral.spelling, signText, pointText]

theorem spellsTooLong_hours : SpellsTooLong "PT999999999999999H".toList := by
  have hseconds : ∀ d, none = some d ↔ DecimalAtFront [] d := by
    intro d
    rw [← secondsPart?_eq_some_iff]
    rfl
  have hparts : DurationAtFront "PT999999999999999H".toList (some 999999999999999) none none :=
    ⟨"999999999999999H".toList, [], [], by decide, (takePart_eq_iff rfl).mp (by decide),
      (takePart_eq_iff rfl).mp rfl, hseconds, by decide⟩
  exact ⟨_, _, _, hparts, Nat.le_trans (by decide) (Nat.le_add_right _ _)⟩

/-- A number of 4301 digits is too much, and so are 999999999999999 hours. -/
theorem ofStored_beyond :
    ¬ (∀ s, ∃ c, ofStored "number" (some s) = .ok c) ∧
      ¬ (∀ s, ∃ c, ofStored "date" (some s) = .ok c) := by
  constructor
  · intro h
    -- Any digits would do, as long as there are more than an integer may have.
    obtain ⟨digits, hdigits, hlong⟩ : ∃ digits : List Char,
        (∀ c ∈ digits, isDecimal c = true) ∧ maxDigits < digits.length := by
      refine ⟨List.replicate 4301 '7', fun c hc => ?_, ?_⟩
      · rw [(List.mem_replicate.mp hc).2]
        rfl
      · rw [List.length_replicate]
        decide
    have hne : String.ofList digits ≠ "" := by
      rintro hempty
      obtain rfl : digits = [] := by simpa using hempty
      cases hlong
    have hkind : StoredKind.ofName? "number" = some .number := rfl
    obtain ⟨c, hc⟩ := h (String.ofList digits)
    rw [ofStored_eq_ofStoredKind hkind hne, (overflows_of_isDecimal hdigits hlong).ofStoredKind_eq] at hc
    cases hc
  · intro h
    have hkind : StoredKind.ofName? "date" = some .date := rfl
    obtain ⟨c, hc⟩ := h "PT999999999999999H"
    rw [ofStored_eq_ofStoredKind hkind (by decide), (Overflows.date spellsTooLong_hours).ofStoredKind_eq]
      at hc
    cases hc

end Content

end Spreadsheet
