import Spreadsheet.Proofs.Reference.RoundTrip

/-!
# Moves one after the other

Moving the references of a text and moving those of the result is moving them once by the sum of both
ways. The first move changes letters and digits, and with them what stands before and behind the other
references. Still the moved text has quoted texts and references in the places where the text had them,
and every reference goes on from where it was moved to.
-/

namespace Spreadsheet

open Text Scanned

variable {rows columns : Int}

/-! ## Where quoted texts end -/

theorem takeClosing?_of_notMem {q : Char} {cs : List Char} (h : q ∉ cs) :
    takeClosing? q cs = none := by
  fun_induction takeClosing? q cs with
  | case1 => rfl
  | case2 => simp at h
  | case3 => rfl
  | case4 => simp at h
  | case5 => simp at h
  | case6 c d cs hc ih => rw [ih (List.not_mem_of_not_mem_cons h), Option.map_none]

namespace Piece

theorem takeToLastPair?_of_notMem {q : Char} {cs : List Char} (h : q ∉ cs) :
    takeToLastPair? q cs = none := by
  fun_induction takeToLastPair? q cs with
  | case1 => rfl
  | case2 => rfl
  | case3 => simp at h
  | case4 => simp at h
  | case5 c d cs hc ih => rw [ih (List.not_mem_of_not_mem_cons h), Option.map_none]

/-- Without a closing mark all marks come in pairs, so without a pair there is none. -/
theorem notMem_of_takeToLastPair? {q : Char} {cs : List Char} (hclosing : takeClosing? q cs = none)
    (h : takeToLastPair? q cs = none) : q ∉ cs := by
  fun_induction takeToLastPair? q cs with
  | case1 => exact List.not_mem_nil
  | case2 c =>
    simp only [takeClosing?, ite_eq_right_iff, reduceCtorEq, imp_false] at hclosing
    simpa using Ne.symm hclosing
  | case3 => cases h
  | case4 => cases h
  | case5 c d cs hc ih =>
    simp only [takeClosing?, hc, if_false, Option.map_eq_none_iff] at hclosing
    rw [Option.map_eq_none_iff] at h
    rw [List.mem_cons, not_or]
    exact ⟨Ne.symm hc, ih hclosing h⟩

/-- A quoted text that ends inside the last pair of marks is followed by the second one of them and by
no other mark. It ends there whatever else follows. -/
theorem takeToLastPair?_rest {q : Char} {cs text rest : List Char}
    (hclosing : takeClosing? q cs = none) (h : takeToLastPair? q cs = some (text, rest)) :
    ∃ more, rest = q :: more ∧ q ∉ more ∧ ∀ others, q ∉ others →
      takeClosing? q (text ++ q :: others) = none ∧
      takeToLastPair? q (text ++ q :: others) = some (text, q :: others) := by
  fun_induction takeToLastPair? q cs generalizing text rest with
  | case1 => cases h
  | case2 => cases h
  | case3 d cs text' rest' hpair ih =>
    cases h
    -- The marks at the front are a pair, since the first of them is no closing mark.
    by_cases hd : d = q
    · simp only [takeClosing?, hd, if_true, Option.map_eq_none_iff] at hclosing
      obtain ⟨more, rfl, hmore, hothers⟩ := ih hclosing hpair
      refine ⟨more, rfl, hmore, fun others h => ?_⟩
      obtain ⟨hnone, hlast⟩ := hothers others h
      simp only [List.cons_append, takeClosing?, takeToLastPair?, hd, if_true, hnone, hlast,
        Option.map_none, and_self]
    · simp [takeClosing?, hd] at hclosing
  | case4 d cs hpair ih =>
    cases h
    by_cases hd : d = q
    · simp only [takeClosing?, hd, if_true, Option.map_eq_none_iff] at hclosing
      refine ⟨cs, by rw [hd], notMem_of_takeToLastPair? hclosing hpair, fun others h => ?_⟩
      simp only [List.cons_append, List.nil_append, takeClosing?, takeToLastPair?, if_true,
        takeClosing?_of_notMem h, takeToLastPair?_of_notMem h, Option.map_none, and_self]
    · simp [takeClosing?, hd] at hclosing
  | case5 c d cs hc ih =>
    simp only [takeClosing?, hc, if_false, Option.map_eq_none_iff] at hclosing
    obtain ⟨⟨text', rest'⟩, hpair, heq⟩ := Option.map_eq_some_iff.mp h
    cases heq
    obtain ⟨more, rfl, hmore, hothers⟩ := ih hclosing hpair
    refine ⟨more, rfl, hmore, fun others h => ?_⟩
    obtain ⟨hnone, hlast⟩ := hothers others h
    -- Something follows `c` in any case.
    obtain ⟨e, es, hcons⟩ : ∃ e es, text' ++ q :: others = e :: es :=
      List.exists_cons_of_ne_nil (by simp)
    rw [hcons] at hnone hlast
    simp only [List.cons_append, hcons, takeClosing?, takeToLastPair?, hc, if_false, hnone, hlast,
      Option.map_none, Option.map_some, and_self]

/-- A mark starts a quoted text unless there is no other one behind it. -/
theorem takeLiteral?_eq_none_iff {q : Char} {cs : List Char} (hq : isMark q = true) :
    takeLiteral? (q :: cs) = none ↔ q ∉ cs := by
  unfold takeLiteral?
  rw [takeQuoted?_cons hq]
  constructor
  · intro h
    cases hclosing : takeClosing? q cs with
    | some found => simp [hclosing] at h
    | none =>
      simp only [hclosing, Option.map_none, hq, if_true, Option.map_eq_none_iff] at h
      exact notMem_of_takeToLastPair? hclosing h
  · intro h
    simp only [takeClosing?_of_notMem h, takeToLastPair?_of_notMem h, hq, if_true, Option.map_none]

/-- A quoted text ends at its closing mark, or else inside the last pair of marks. -/
theorem exists_of_takeLiteral? {cs literal rest : List Char}
    (h : takeLiteral? cs = some (literal, rest)) :
    ∃ q text more, isMark q = true ∧ cs = q :: more ∧ literal = q :: text ∧
      (takeClosing? q more = some (text, rest) ∨
        (takeClosing? q more = none ∧ takeToLastPair? q more = some (text, rest))) := by
  cases cs with
  | nil => cases h
  | cons q more =>
    by_cases hq : isMark q = true
    · unfold takeLiteral? at h
      rw [takeQuoted?_cons hq] at h
      -- An unclosed literal reaches back to the last doubled mark, as a backtracking match does.
      cases hclosing : takeClosing? q more with
      | some found =>
        rw [hclosing] at h
        cases h
        exact ⟨q, found.1, more, hq, rfl, rfl, Or.inl hclosing⟩
      | none =>
        simp only [hclosing, Option.map_none, hq, if_true] at h
        obtain ⟨found, hpair, heq⟩ := Option.map_eq_some_iff.mp h
        cases heq
        exact ⟨q, found.1, more, hq, rfl, rfl, Or.inr ⟨hclosing, hpair⟩⟩
    · rw [Bool.not_eq_true] at hq
      rw [takeLiteral?_of_isMark hq] at h
      cases h

/-! ## Plain digits -/

def HasPlainDigits (cs : List Char) : Prop :=
  ∀ c ∈ cs, isDecimal c = true → isPlainDigit c = true

instance decidableHasPlainDigits (cs : List Char) : Decidable (HasPlainDigits cs) :=
  -- Named, since the search may find the instance that goes over every character there is.
  List.decidableBAll (fun c => isDecimal c = true → isPlainDigit c = true) cs

theorem HasPlainDigits.mono {cs ds : List Char} (h : HasPlainDigits ds) (hsubset : cs ⊆ ds) :
    HasPlainDigits cs :=
  fun c hc => h c (hsubset hc)

theorem isNameChar_of_isPlainDigit {c : Char} (h : isPlainDigit c = true) :
    isNameChar c = true := by
  have hdigit : c.isDigit = true := h
  simp [isNameChar, Char.isAlphanum, hdigit]

theorem isNameChar_of_isCapital {c : Char} (h : isCapital c = true) : isNameChar c = true := by
  have hupper : c.isUpper = true := by
    simp only [isCapital, Bool.and_eq_true, decide_eq_true_eq] at h
    exact decide_eq_true h
  have halpha : c.isAlpha = true := by
    show (c.isUpper || c.isLower) = true
    rw [hupper, Bool.true_or]
  simp [isNameChar, Char.isAlphanum, halpha]

theorem joinsBefore_of_isNameChar {c : Char} (h : isNameChar c = true) : joinsBefore c = true := by
  simp [joinsBefore, h]

/-- Every character of a reference in plain digits joins one behind it into a longer name. -/
theorem joinsBefore_of_mem_spelling {r : Reference} (hform : r.WellFormed)
    (hplain : HasPlainDigits r.spelling) : ∀ c ∈ r.spelling, joinsBefore c = true := by
  intro c hc
  rcases Reference.mem_spelling hform hc with rfl | hcapital | hdecimal
  · rfl
  · exact joinsBefore_of_isNameChar (isNameChar_of_isCapital hcapital)
  · exact joinsBefore_of_isNameChar (isNameChar_of_isPlainDigit (hplain c hc hdecimal))

theorem joinsBefore_getLast?_digits {r : Reference} (hform : r.WellFormed)
    (hplain : HasPlainDigits r.spelling) : r.digits.getLast?.any joinsBefore = true := by
  rw [← Reference.getLast?_spelling hform]
  obtain ⟨c, cs, hcons, -⟩ := Reference.head?_spelling hform
  have hne : r.spelling ≠ [] := by simp [hcons]
  rw [List.getLast?_eq_some_getLast hne]
  exact joinsBefore_of_mem_spelling hform hplain _ (List.getLast_mem hne)

/-! ## Where references end -/

theorem backOff_head? {reversed rest digits left : List Char}
    (h : backOff reversed rest = some (digits, left)) : left.head?.any joinsAfter = false := by
  -- Digits are given back one by one, until what follows no longer joins.
  induction reversed generalizing rest with
  | nil => cases h
  | cons d ds ih =>
    unfold backOff at h
    split at h
    · exact ih h
    · rename_i hjoins
      cases h
      exact (Bool.not_eq_true _).mp hjoins

theorem backOff_of_head? {reversed rest : List Char} (hne : reversed ≠ [])
    (h : rest.head?.any joinsAfter = false) :
    backOff reversed rest = some (reversed.reverse, rest) := by
  cases reversed with
  | nil => exact absurd rfl hne
  | cons d ds =>
    unfold backOff
    rw [h, if_neg Bool.false_ne_true]

/-- In plain digits, a reference is taken from the front of a text just if it is spelled there and no
name or call goes on behind it. -/
theorem takeReference?_eq_some_iff {cs rest : List Char} {r : Reference}
    (hplain : HasPlainDigits cs) :
    takeReference? cs = some (r, rest) ↔
      r.WellFormed ∧ r.spelling ++ rest = cs ∧ rest.head?.any joinsAfter = false := by
  constructor
  · intro h
    refine ⟨wellFormed_of_takeReference? h, takeReference?_append h, ?_⟩
    simp only [takeReference?, Option.bind_eq_bind, Option.bind_eq_some_iff, Prod.exists] at h
    obtain ⟨r', rest', -, digits, left, hback, hr⟩ := h
    cases hr
    exact backOff_head? hback
  · rintro ⟨hform, rfl, hhead⟩
    -- A digit behind the reference would be plain, and a plain digit joins it.
    have hdecimal : ∀ c ∈ rest.head?, isDecimal c = false := by
      intro c hc
      by_contra hcontra
      rw [Bool.not_eq_false] at hcontra
      have hmem : c ∈ rest := List.mem_of_mem_head? hc
      have hname := isNameChar_of_isPlainDigit
        (hplain c (List.mem_append_right _ hmem) hcontra)
      rw [Option.mem_def.mp hc, Option.any_some, joinsAfter, hname] at hhead
      cases hhead
    have hne : r.digits.reverse ≠ [] := by simp [hform.digits_ne_nil]
    simp only [takeReference?, Reference.take?_spelling_append hform hdecimal, Option.bind_eq_bind,
      Option.bind_some, backOff_of_head? hne hhead, List.reverse_reverse]
    rfl

/-- A reference that is taken from the front of a text is a piece of its own. -/
theorem piecesFrom_of_takeReference? {previous : Option Char} {r : Reference} {rest : List Char}
    (hform : r.WellFormed) (hjoins : previous.any joinsBefore = false)
    (h : takeReference? (r.spelling ++ rest) = some (r, rest)) :
    piecesFrom previous (r.spelling ++ rest) =
      .reference r :: piecesFrom r.digits.getLast? rest := by
  obtain ⟨c, cs, hcons, hstart⟩ := Reference.head?_spelling hform
  rw [hcons, List.cons_append] at h ⊢
  exact piecesFrom_reference (isMark_of_isNamePart (isNamePart_of_start hstart)) hjoins h

end Piece

/-! ## What a reference becomes -/

namespace Reference

theorem mem_digits_of_isDecimal {r : Reference} (hform : r.WellFormed) {c : Char}
    (hc : c ∈ r.spelling) (hdecimal : isDecimal c = true) : c ∈ r.digits := by
  have hdollar : ∀ anchored : Bool, c ∉ (if anchored then ['$'] else []) := by
    intro anchored hmem
    cases anchored with
    | true =>
      rw [List.mem_singleton.mp hmem] at hdecimal
      cases hdecimal
    | false => cases hmem
  simp only [spelling, List.mem_append] at hc
  rcases hc with ((hanchor | hletter) | hanchor) | hdigit
  · exact absurd hanchor (hdollar _)
  · rw [isDecimal_of_isCapital (hform.isCapital_letters c hletter)] at hdecimal
    cases hdecimal
  · exact absurd hanchor (hdollar _)
  · exact hdigit

/-- A reference that has moved within the sheet goes on from where it is. -/
theorem exists_moved_of_shifted {r : Reference} {moved : List Char}
    (h : r.shifted rows columns = .ok moved) (hvalid : moved ≠ invalidReference) :
    ∃ m : Reference, moved = m.spelling ∧ m.WellFormed ∧ Piece.HasPlainDigits m.spelling ∧
      ∀ rows' columns', m.shifted rows' columns' = r.shifted (rows + rows') (columns + columns') := by
  obtain ⟨a, c, row, digits, haddress, -, hrow, hcolumn, rfl, hdigits, rfl⟩ := shifted_eq_ok h hvalid
  have hform := wellFormed_label a.columnAnchored a.rowAnchored c row
  refine ⟨_, rfl, hform, ?_, fun rows' columns' => ?_⟩
  · intro d hd hdecimal
    exact isPlainDigit_of_mem_toDigits (mem_digits_of_isDecimal hform hd hdecimal)
  · have hread := Address.ofSpelling?_label a.columnAnchored a.rowAnchored c hdigits
    rw [← address?_eq_ofSpelling? hform] at hread
    -- An anchored row or column has stayed, and any other is counted from where it has got to.
    have hrows : (if a.rowAnchored then (row : Int) else row + rows') =
        if a.rowAnchored then (a.row : Int) else a.row + (rows + rows') := by
      split at hrow <;> simp_all [Int.add_assoc]
    have hcolumns : (if a.columnAnchored then (c.index : Int) else c.index + columns') =
        if a.columnAnchored then (a.column.index : Int) else a.column.index + (columns + columns') := by
      split at hcolumn <;> simp_all [Int.add_assoc]
    simp only [shifted, hread, haddress, hrows, hcolumns]

end Reference

/-! ## What a text becomes -/

namespace Moves

open Piece

/-- The moved text has no new characters but those of references. -/
theorem mem_of_moves {ps : List Piece} {out : List Char} (h : Moves rows columns ps out) {c : Char}
    (hc : c ∈ out) : c ∈ (ps.map text).flatten ∨
      ∃ m : Reference, m.WellFormed ∧ HasPlainDigits m.spelling ∧ c ∈ m.spelling := by
  -- A character lies in a piece that stays or in a reference that has moved.
  induction h with
  | nil => exact Or.inl hc
  | verbatim text _ ih =>
    rw [List.map_cons, List.flatten_cons, List.mem_append]
    rcases List.mem_append.mp hc with htext | hrest
    · exact Or.inl (Or.inl htext)
    · exact (ih hrest).imp_left Or.inr
  | reference hshifted hvalid _ ih =>
    rw [List.map_cons, List.flatten_cons, List.mem_append]
    rcases List.mem_append.mp hc with htext | hrest
    · obtain ⟨m, rfl, hform, hplain, -⟩ := Reference.exists_moved_of_shifted hshifted hvalid
      exact Or.inr ⟨m, hform, hplain, htext⟩
    · exact (ih hrest).imp_left Or.inr

theorem hasPlainDigits {previous : Option Char} {cs out : List Char}
    (h : Moves rows columns (piecesFrom previous cs) out) (hplain : HasPlainDigits cs) :
    HasPlainDigits out := by
  intro c hc hdecimal
  rcases h.mem_of_moves hc with hmem | ⟨m, -, hm, hmem⟩
  · rw [flatten_piecesFrom] at hmem
    exact hplain c hmem hdecimal
  · exact hm c hmem hdecimal

/-- The marks of the moved text are those of the text. -/
theorem mem_of_isMark {previous : Option Char} {cs out : List Char}
    (h : Moves rows columns (piecesFrom previous cs) out) {q : Char} (hq : isMark q = true)
    (hmem : q ∈ out) : q ∈ cs := by
  rcases h.mem_of_moves hmem with hmem | ⟨m, hform, -, hmem⟩
  · rw [flatten_piecesFrom] at hmem
    exact hmem
  · have hpart := Reference.isNamePart_of_mem_spelling hform hmem
    rw [isMark_of_isNamePart hpart] at hq
    cases hq

/-- Behind a name no reference starts, so the next character stays. -/
theorem head?_of_joins {previous : Option Char} {cs out : List Char}
    (hjoins : previous.any joinsBefore = true)
    (h : Moves rows columns (piecesFrom previous cs) out) : out.head? = cs.head? := by
  cases cs with
  | nil =>
    cases h
    rfl
  | cons c cs =>
    cases hliteral : takeLiteral? (c :: cs) with
    | some found =>
      rw [piecesFrom_literal previous hliteral] at h
      obtain ⟨more, rfl, -⟩ := h.of_verbatim
      rw [← takeLiteral?_append hliteral]
      obtain ⟨d, ds, hd⟩ := List.exists_cons_of_ne_nil (takeLiteral?_ne_nil hliteral)
      rw [hd, List.cons_append, List.cons_append, List.head?_cons, List.head?_cons]
    | none =>
      rw [piecesFrom_single hliteral (Or.inl hjoins)] at h
      obtain ⟨more, rfl, -⟩ := h.of_verbatim
      rfl

/-- A name that goes on in the moved text goes on alike in the text. -/
theorem exists_of_run {previous : Option Char} {cs run rest : List Char}
    (hjoins : previous.any joinsBefore = true) (hrun : ∀ c ∈ run, joinsBefore c = true)
    (h : Moves rows columns (piecesFrom previous cs) (run ++ rest)) :
    ∃ left, cs = run ++ left ∧ left.head? = rest.head? := by
  -- Along the run: each of its characters keeps a reference from starting at the next one.
  induction run generalizing previous cs with
  | nil => exact ⟨cs, rfl, (h.head?_of_joins hjoins).symm⟩
  | cons d run ih =>
    obtain ⟨hd, hrest⟩ := List.forall_mem_cons.mp hrun
    have hhead := h.head?_of_joins hjoins
    obtain ⟨cs, rfl⟩ : ∃ ds, cs = d :: ds := List.head?_eq_some_iff.mp hhead.symm
    have hmark : isMark d = false := isMark_of_isNamePart (isNamePart_of_joinsBefore hd)
    rw [piecesFrom_verbatim hmark (Or.inl hjoins)] at h
    obtain ⟨out, hout, hmoves⟩ := h.of_verbatim
    cases hout
    have hjoins' : (some d).any joinsBefore = true := hd
    obtain ⟨left, rfl, hleft⟩ := ih hjoins' hrest hmoves
    exact ⟨left, rfl, hleft⟩

/-- A quoted text ends where it ended before what follows it moved. -/
theorem takeLiteral?_append {previous : Option Char} {cs literal rest out : List Char}
    (hliteral : takeLiteral? cs = some (literal, rest))
    (h : Moves rows columns (piecesFrom previous rest) out) :
    takeLiteral? (literal ++ out) = some (literal, out) := by
  obtain ⟨q, text, more, hq, rfl, rfl, hclosing | ⟨hclosing, hpair⟩⟩ :=
    exists_of_takeLiteral? hliteral
  · -- No second mark comes to stand behind the closing one.
    have hhead : ∀ c ∈ out.head?, c ≠ q := by
      rcases h.head_eq_or_isNameStart with heq | ⟨c, d, -, hd, -, hstart⟩
      · rw [heq]
        exact takeClosing?_rest hclosing
      · intro c hc heq
        rw [hd, Option.mem_def, Option.some.injEq] at hc
        rw [hc, heq] at hstart
        rw [isMark_of_isNamePart (isNamePart_of_start hstart)] at hq
        cases hq
    have htake := takeClosing?_append_of_head (takeClosing?_self hclosing) hhead
    unfold takeLiteral?
    rw [List.cons_append, takeQuoted?_cons hq, htake]
    rfl
  · obtain ⟨others, rfl, hothers, hstable⟩ := takeToLastPair?_rest hclosing hpair
    -- What follows the first mark of the last pair starts with the second one, the last of all.
    have hnone : takeLiteral? (q :: others) = none := (takeLiteral?_eq_none_iff hq).mpr hothers
    have hname : isNamePart q = false := isNamePart_of_isMark hq
    have hcapital : isCapital q = false := eq_false_of_imp isNamePart_of_isCapital hname
    have hdollar : q ≠ '$' := by
      rintro rfl
      cases hname
    rw [piecesFrom_single hnone (Or.inr (takeReference?_eq_none hcapital hdollar others))] at h
    obtain ⟨out, rfl, hmoves⟩ := h.of_verbatim
    obtain ⟨hnone', hlast⟩ := hstable out fun hmem => hothers (hmoves.mem_of_isMark hq hmem)
    unfold takeLiteral?
    rw [List.cons_append, takeQuoted?_cons hq]
    simp only [List.singleton_append, hnone', hlast, hq, if_true, Option.map_none, Option.map_some]

/-- Where a text has no reference the moved text has none. -/
theorem takeReference?_eq_none_of_moves {c : Char} {cs out : List Char}
    (hplain : HasPlainDigits (c :: cs)) (hout : HasPlainDigits (c :: out))
    (hnone : takeReference? (c :: cs) = none)
    (h : Moves rows columns (piecesFrom (some c) cs) out) : takeReference? (c :: out) = none := by
  cases hfound : takeReference? (c :: out) with
  | none => rfl
  | some found =>
    obtain ⟨r, rest⟩ := found
    obtain ⟨hform, hall, hhead⟩ := (takeReference?_eq_some_iff hout).mp hfound
    -- The spelling of the reference is a name that starts with `c`, so it stood there before.
    have hplain' : HasPlainDigits r.spelling :=
      hout.mono (by rw [← hall]; exact List.subset_append_left r.spelling rest)
    have hjoins := joinsBefore_of_mem_spelling hform hplain'
    obtain ⟨d, run, hrun, -⟩ := Reference.head?_spelling hform
    rw [hrun] at hall hjoins
    cases hall
    obtain ⟨hc, hjoins⟩ := List.forall_mem_cons.mp hjoins
    have hprevious : (some c).any joinsBefore = true := hc
    obtain ⟨left, rfl, hleft⟩ := h.exists_of_run hprevious hjoins
    have hagain : takeReference? (c :: (run ++ left)) = some (r, left) := by
      rw [takeReference?_eq_some_iff hplain, hrun, hleft]
      exact ⟨hform, rfl, hhead⟩
    rw [hagain] at hnone
    cases hnone

/-- A character that is a piece of its own stays one. -/
theorem piecesFrom_cons {previous previous' : Option Char} {c : Char} {cs out : List Char}
    (hplain : HasPlainDigits (c :: cs)) (hout : HasPlainDigits (c :: out))
    (hprevious : previous'.any joinsBefore = previous.any joinsBefore)
    (hliteral : takeLiteral? (c :: cs) = none)
    (hreference : previous.any joinsBefore = true ∨ takeReference? (c :: cs) = none)
    (h : Moves rows columns (piecesFrom (some c) cs) out) :
    piecesFrom previous' (c :: out) = .verbatim [c] :: piecesFrom (some c) out := by
  have hliteral' : takeLiteral? (c :: out) = none := by
    by_cases hmark : isMark c = true
    · rw [takeLiteral?_eq_none_iff hmark] at hliteral ⊢
      exact fun hmem => hliteral (h.mem_of_isMark hmark hmem)
    · exact takeLiteral?_of_isMark ((Bool.not_eq_true _).mp hmark) out
  have hreference' : previous'.any joinsBefore = true ∨ takeReference? (c :: out) = none := by
    rw [hprevious]
    exact hreference.imp_right fun hnone => h.takeReference?_eq_none_of_moves hplain hout hnone
  exact piecesFrom_single hliteral' hreference'

/-- What a reference becomes is a piece of its own, since a name goes on behind both or neither. -/
theorem piecesFrom_append {previous : Option Char} {r m : Reference} {rest out : List Char}
    (hr : r.WellFormed) (hplain : HasPlainDigits r.spelling)
    (hhead : rest.head?.any joinsAfter = false) (hm : m.WellFormed)
    (hout : HasPlainDigits (m.spelling ++ out)) (hjoins : previous.any joinsBefore = false)
    (h : Moves rows columns (piecesFrom r.digits.getLast? rest) out) :
    piecesFrom previous (m.spelling ++ out) =
      .reference m :: piecesFrom m.digits.getLast? out := by
  have hstays := h.head?_of_joins (joinsBefore_getLast?_digits hr hplain)
  have hfound : takeReference? (m.spelling ++ out) = some (m, out) := by
    rw [takeReference?_eq_some_iff hout, hstays]
    exact ⟨hm, rfl, hhead⟩
  exact piecesFrom_of_takeReference? hm hjoins hfound

end Moves

namespace Piece

def MovesOn (rows columns : Int) (p q : Piece) : Prop :=
  ∀ rows' columns', p.shifted (rows + rows') (columns + columns') = q.shifted rows' columns'

/-- The pieces of the moved text are what the pieces of the text become. -/
theorem forall₂_movesOn {previous previous' : Option Char} {cs out : List Char}
    (hplain : HasPlainDigits cs)
    (hprevious : previous'.any joinsBefore = previous.any joinsBefore)
    (h : Moves rows columns (piecesFrom previous cs) out) :
    List.Forall₂ (MovesOn rows columns) (piecesFrom previous cs) (piecesFrom previous' out) := by
  -- A piece takes off more than one character, so the induction is on the length of the text.
  induction hlength : cs.length using Nat.strong_induction_on
    generalizing previous previous' cs out with
  | h k ih =>
    subst hlength
    cases cs with
    | nil =>
      cases h
      exact .nil
    | cons c cs =>
      have hout := h.hasPlainDigits hplain
      cases hliteral : takeLiteral? (c :: cs) with
      | some found =>
        -- A quoted text stays and is found again.
        obtain ⟨literal, rest⟩ := found
        have hall := takeLiteral?_append hliteral
        have hle := length_le_of_cons hall (takeLiteral?_ne_nil hliteral)
        rw [piecesFrom_literal previous hliteral] at h ⊢
        obtain ⟨more, rfl, hmoves⟩ := h.of_verbatim
        rw [piecesFrom_literal previous' (hmoves.takeLiteral?_append hliteral)]
        have hrest : HasPlainDigits rest :=
          hplain.mono (by rw [← hall]; exact List.subset_append_right literal rest)
        exact .cons (fun _ _ => rfl)
          (ih rest.length (by simp only [List.length_cons]; omega) hrest rfl hmoves rfl)
      | none =>
        by_cases hreference : previous.any joinsBefore = true ∨ takeReference? (c :: cs) = none
        · -- A single character stays, and nothing starts with it.
          rw [piecesFrom_single hliteral hreference] at h ⊢
          obtain ⟨more, rfl, hmoves⟩ := h.of_verbatim
          rw [List.singleton_append] at hout ⊢
          rw [hmoves.piecesFrom_cons hplain hout hprevious hliteral hreference]
          exact .cons (fun _ _ => rfl) (ih cs.length (by simp only [List.length_cons]; omega)
            (hplain.mono (List.subset_cons_self c cs)) rfl hmoves rfl)
        · -- A reference becomes a reference.
          rw [not_or, Bool.not_eq_true] at hreference
          obtain ⟨hjoins, hsome⟩ := hreference
          obtain ⟨⟨r, rest⟩, hfound⟩ := Option.ne_none_iff_exists'.mp hsome
          obtain ⟨hform, hall, hhead⟩ := (takeReference?_eq_some_iff hplain).mp hfound
          have hle := length_le_of_cons hall (takeReference?_spelling_ne_nil hfound)
          rw [← hall] at h hfound hplain ⊢
          have hr : HasPlainDigits r.spelling := hplain.mono (List.subset_append_left _ _)
          have hrest : HasPlainDigits rest := hplain.mono (List.subset_append_right _ _)
          rw [piecesFrom_of_takeReference? hform hjoins hfound] at h ⊢
          cases h with
          | @reference _ moved _ more hshifted hvalid hmoves =>
            obtain ⟨m, rfl, hm, hmplain, hon⟩ := Reference.exists_moved_of_shifted hshifted hvalid
            rw [hmoves.piecesFrom_append hform hr hhead hm hout (hprevious.trans hjoins)]
            refine .cons (fun rows' columns' => (hon rows' columns').symm) ?_
            have hlast := (joinsBefore_getLast?_digits hm hmplain).trans
              (joinsBefore_getLast?_digits hform hr).symm
            exact ih rest.length (by simp only [List.length_cons]; omega) hrest hlast hmoves rfl

end Piece

/-! ## Two moves -/

namespace Reference

def rowFits (r : Reference) (rows : Int) : Bool :=
  r.address?.all fun a =>
    (integerText? (if a.rowAnchored then (a.row : Int) else a.row + rows)).isSome

theorem exists_shifted_of_rowFits {r : Reference} (h : r.rowFits rows = true) :
    ∃ moved, r.shifted rows columns = .ok moved := by
  unfold rowFits at h
  unfold shifted
  cases haddress : r.address? with
  | none => exact ⟨_, rfl⟩
  | some a =>
    rw [haddress, Option.all_some] at h
    dsimp only
    generalize (if a.rowAnchored then (a.row : Int) else a.row + rows) = row at h ⊢
    obtain ⟨digits, hdigits⟩ := Option.isSome_iff_exists.mp h
    rw [hdigits]
    split
    · exact ⟨_, rfl⟩
    · split
      · exact ⟨_, rfl⟩
      · exact ⟨_, rfl⟩

end Reference

/-- A text whose references all stay on the sheet moves. -/
theorem exists_moves_of_rowFits {ps : List Piece}
    (hvalid : ∀ r, Piece.reference r ∈ ps → r.shifted rows columns ≠ .ok invalidReference)
    (hfits : ∀ r, Piece.reference r ∈ ps → r.rowFits rows = true) :
    ∃ out, Moves rows columns ps out := by
  refine Moves.exists_of_forall fun r hr => ?_
  obtain ⟨moved, hmoved⟩ := Reference.exists_shifted_of_rowFits (hfits r hr)
  refine ⟨moved, hmoved, fun hinvalid => hvalid r hr ?_⟩
  rw [hmoved, hinvalid]

theorem exists_shiftReferences_of_rowFits {text : String}
    (hfits : ∀ r, Piece.reference r ∈ Piece.split text.toList → r.rowFits rows = true) :
    ∃ moved, shiftReferences text rows columns = .ok moved := by
  obtain ⟨parts, hparts⟩ : ∃ parts,
      (Piece.split text.toList).mapM (Piece.shifted rows columns) = .ok parts := by
    refine exists_mapM_of_forall fun p hp => ?_
    cases p with
    | verbatim text => exact ⟨text, rfl⟩
    | reference r => exact Reference.exists_shifted_of_rowFits (hfits r hp)
  unfold shiftReferences
  rw [hparts]
  exact ⟨_, rfl⟩

/-- Moving the references of a text that stay on the sheet, and then those of the result, is moving
them once by the sum of both ways, those that leave the sheet on the second way included. -/
theorem shiftReferences_shiftReferences {text : String} (rows' columns' : Int)
    (hplain : Piece.HasPlainDigits text.toList)
    (hvalid : ∀ r, Piece.reference r ∈ Piece.split text.toList →
      r.shifted rows columns ≠ .ok invalidReference)
    (hfits : ∀ r, Piece.reference r ∈ Piece.split text.toList → r.rowFits rows = true) :
    ∃ moved, shiftReferences text rows columns = .ok moved ∧
      shiftReferences moved rows' columns' =
        shiftReferences text (rows + rows') (columns + columns') ∧
      ((∀ r, Piece.reference r ∈ Piece.split text.toList → r.rowFits (rows + rows') = true) →
        ∃ both, shiftReferences text (rows + rows') (columns + columns') = .ok both) := by
  obtain ⟨out, hmoves⟩ := exists_moves_of_rowFits hvalid hfits
  have htwice : List.Forall₂ (Piece.MovesOn rows columns) (Piece.split text.toList)
      (Piece.split out) := Piece.forall₂_movesOn hplain rfl hmoves
  refine ⟨String.ofList out, ?_, ?_, exists_shiftReferences_of_rowFits⟩
  · exact Moves.shiftReferences_eq (by rw [String.toList_ofList]; exact hmoves)
  · have hparts := mapM_congr (htwice.imp fun p q h => h rows' columns')
    unfold shiftReferences
    rw [String.toList_ofList, hparts]

/-- A quoted text without an end, behind which a reference moves too. -/
theorem shiftReferences_openQuote :
    shiftReferences "A9+$Z3*\"x\"\"A1" 1 1 = .ok "B10+$Z4*\"x\"\"B2" ∧
      shiftReferences "B10+$Z4*\"x\"\"B2" (-5) 0 =
        shiftReferences "A9+$Z3*\"x\"\"A1" (1 + -5) (1 + 0) ∧
      shiftReferences "A9+$Z3*\"x\"\"A1" (1 + -5) (1 + 0) = .ok "B5+#REF!*\"x\"\"#REF!" := by
  have hplain : Piece.HasPlainDigits "A9+$Z3*\"x\"\"A1".toList := by decide
  have hvalid : ∀ r, Piece.reference r ∈ Piece.split "A9+$Z3*\"x\"\"A1".toList →
      r.shifted 1 1 ≠ .ok invalidReference := by decide
  have hfits : ∀ r, Piece.reference r ∈ Piece.split "A9+$Z3*\"x\"\"A1".toList →
      r.rowFits 1 = true := by decide
  have hfirst : shiftReferences "A9+$Z3*\"x\"\"A1" 1 1 = .ok "B10+$Z4*\"x\"\"B2" := by rfl
  obtain ⟨moved, hmoved, htwice, -⟩ := shiftReferences_shiftReferences (-5) 0 hplain hvalid hfits
  rw [hfirst] at hmoved
  cases hmoved
  exact ⟨hfirst, htwice, by rfl⟩

end Spreadsheet
