import Spreadsheet.Proofs.Reference.Spelling
import Spreadsheet.Proofs.Results

/-!
# The pieces of a part of a text

A part of a text has the same pieces as in the whole, unless its ends lie inside a name or a quoted
text. So the references of a text move part by part.
-/

namespace Spreadsheet

open Text Scanned

namespace Piece

def piecesFrom (previous : Option Char) (cs : List Char) : List Piece :=
  splitFrom cs.length previous cs

/-- No more pieces are looked for than there are characters. -/
theorem splitFrom_eq_piecesFrom {n : Nat} (previous : Option Char) {cs : List Char}
    (h : cs.length ≤ n) : splitFrom n previous cs = piecesFrom previous cs := by
  unfold piecesFrom
  -- Any bound that is long enough will do, so the induction is on the length for all bounds at
  -- once.
  induction hlength : cs.length using Nat.strong_induction_on generalizing n previous cs with
  | h k ih =>
    subst hlength
    cases cs with
    | nil => cases n <;> rfl
    | cons c cs =>
      cases n with
      | zero => cases h
      | succ n =>
        have hn : cs.length ≤ n := Nat.le_of_succ_le_succ h
        -- A shorter rest is split alike with either bound.
        have hrest : ∀ (previous : Option Char) (rest : List Char), rest.length ≤ cs.length →
            splitFrom n previous rest = splitFrom cs.length previous rest := by
          intro previous rest hle
          rw [ih rest.length (by simp only [List.length_cons]; omega) previous (by omega) rfl,
            ih rest.length (by simp only [List.length_cons]; omega) previous hle rfl]
        simp only [List.length_cons, splitFrom]
        split
        · rename_i literal rest hliteral
          have hall := congrArg List.length (takeLiteral?_append hliteral)
          have hpos := List.length_pos_iff.mpr (takeLiteral?_ne_nil hliteral)
          simp only [List.length_append, List.length_cons] at hall
          rw [hrest _ rest (by omega)]
        · split
          · rename_i r rest hreference
            split at hreference
            · cases hreference
            · have hall := congrArg List.length (takeReference?_append hreference)
              have hpos := List.length_pos_iff.mpr (takeReference?_spelling_ne_nil hreference)
              simp only [List.length_append, List.length_cons] at hall
              rw [hrest _ rest (by omega)]
          · rw [hrest _ cs (Nat.le_refl _)]

theorem piecesFrom_nil (previous : Option Char) : piecesFrom previous [] = [] := rfl

theorem length_le_of_cons {c : Char} {cs part rest : List Char} (h : part ++ rest = c :: cs)
    (hpart : part ≠ []) : rest.length ≤ cs.length := by
  have hall := congrArg List.length h
  have hpos := List.length_pos_iff.mpr hpart
  simp only [List.length_append, List.length_cons] at hall
  omega

theorem piecesFrom_literal (previous : Option Char) {cs literal rest : List Char}
    (h : takeLiteral? cs = some (literal, rest)) :
    piecesFrom previous cs = .verbatim literal :: piecesFrom literal.getLast? rest := by
  have hall := takeLiteral?_append h
  have hne := takeLiteral?_ne_nil h
  cases cs with
  | nil => exact absurd (List.append_eq_nil_iff.mp hall).1 hne
  | cons c cs =>
    rw [← splitFrom_eq_piecesFrom literal.getLast? (length_le_of_cons hall hne)]
    simp only [piecesFrom, List.length_cons, splitFrom, h]

theorem takeLiteral?_of_isMark {c : Char} (hmark : isMark c = false) (cs : List Char) :
    takeLiteral? (c :: cs) = none := by
  simp only [takeLiteral?, takeQuoted?, hmark, Bool.false_eq_true, if_false]

theorem piecesFrom_reference {previous : Option Char} {c : Char} {cs rest : List Char}
    {r : Reference} (hmark : isMark c = false) (hprevious : previous.any joinsBefore = false)
    (h : takeReference? (c :: cs) = some (r, rest)) :
    piecesFrom previous (c :: cs) = .reference r :: piecesFrom r.digits.getLast? rest := by
  rw [← splitFrom_eq_piecesFrom r.digits.getLast?
    (length_le_of_cons (takeReference?_append h) (takeReference?_spelling_ne_nil h))]
  simp only [piecesFrom, List.length_cons, splitFrom, takeLiteral?_of_isMark hmark, hprevious,
    Bool.false_eq_true, if_false, h]

/-- A character that starts neither a quoted text nor a reference is a piece by itself. -/
theorem piecesFrom_single {previous : Option Char} {c : Char} {cs : List Char}
    (hliteral : takeLiteral? (c :: cs) = none)
    (h : previous.any joinsBefore = true ∨ takeReference? (c :: cs) = none) :
    piecesFrom previous (c :: cs) = .verbatim [c] :: piecesFrom (some c) cs := by
  have hnone : (if previous.any joinsBefore then none else takeReference? (c :: cs)) = none := by
    rcases h with hjoins | hnone
    · rw [if_pos hjoins]
    · rw [hnone, ite_self]
  simp only [piecesFrom, List.length_cons, splitFrom, hliteral, hnone]

theorem piecesFrom_verbatim {previous : Option Char} {c : Char} {cs : List Char}
    (hmark : isMark c = false)
    (h : previous.any joinsBefore = true ∨ takeReference? (c :: cs) = none) :
    piecesFrom previous (c :: cs) = .verbatim [c] :: piecesFrom (some c) cs :=
  piecesFrom_single (takeLiteral?_of_isMark hmark cs) h

/-- The first piece of a text is a quoted text, a reference or one character. -/
theorem piecesFrom_cases (previous : Option Char) (c : Char) (cs : List Char) :
    (∃ literal rest, takeLiteral? (c :: cs) = some (literal, rest) ∧
        piecesFrom previous (c :: cs) = .verbatim literal :: piecesFrom literal.getLast? rest) ∨
      (∃ r rest, takeReference? (c :: cs) = some (r, rest) ∧
        piecesFrom previous (c :: cs) = .reference r :: piecesFrom r.digits.getLast? rest) ∨
      piecesFrom previous (c :: cs) = .verbatim [c] :: piecesFrom (some c) cs := by
  cases hliteral : takeLiteral? (c :: cs) with
  | some found => exact Or.inl ⟨found.1, found.2, rfl, piecesFrom_literal previous hliteral⟩
  | none =>
    cases hreference : (if previous.any joinsBefore then none else takeReference? (c :: cs)) with
    | none =>
      refine Or.inr (Or.inr ?_)
      simp only [piecesFrom, List.length_cons, splitFrom, hliteral, hreference]
    | some found =>
      have hfound : takeReference? (c :: cs) = some found := by
        split at hreference
        · cases hreference
        · exact hreference
      have hle := length_le_of_cons (takeReference?_append hfound)
        (takeReference?_spelling_ne_nil hfound)
      refine Or.inr (Or.inl ⟨found.1, found.2, hfound, ?_⟩)
      rw [← splitFrom_eq_piecesFrom found.1.digits.getLast? hle]
      simp only [piecesFrom, List.length_cons, splitFrom, hliteral, hreference]

/-! ## Where a reference can start -/

theorem takeReference?_of_take? {cs : List Char} (h : Reference.take? cs = none) :
    takeReference? cs = none := by
  simp only [takeReference?, h, Option.bind_eq_bind, Option.bind_none]

theorem takeReference?_eq_none {c : Char} (hcapital : isCapital c = false) (hdollar : c ≠ '$')
    (cs : List Char) : takeReference? (c :: cs) = none := by
  apply takeReference?_of_take?
  have hsplit : Reference.splitAnchor (c :: cs) = (false, c :: cs) := by
    unfold Reference.splitAnchor
    split
    · rename_i heq
      exact absurd (List.cons.inj heq).1 hdollar
    · rfl
  simp only [Reference.take?, hsplit, List.takeWhile_cons, hcapital, Bool.false_eq_true, if_false,
    List.isEmpty_nil, Bool.true_or, if_true]

structure Inert (c : Char) : Prop where
  isMark_eq : isMark c = false
  isCapital_eq : isCapital c = false
  ne_dollar : c ≠ '$'

instance decidableInert (c : Char) : Decidable (Inert c) :=
  decidable_of_iff (isMark c = false ∧ isCapital c = false ∧ c ≠ '$')
    ⟨fun h => ⟨h.1, h.2.1, h.2.2⟩, fun h => ⟨h.isMark_eq, h.isCapital_eq, h.ne_dollar⟩⟩

theorem piecesFrom_inert (previous : Option Char) {c : Char} (h : Inert c) (cs : List Char) :
    piecesFrom previous (c :: cs) = .verbatim [c] :: piecesFrom (some c) cs :=
  piecesFrom_verbatim h.isMark_eq
    (Or.inr (takeReference?_eq_none h.isCapital_eq h.ne_dollar cs))

/-- What precedes a text matters only where it joins a reference. -/
theorem piecesFrom_of_joinsBefore {previous : Option Char} {cs : List Char}
    (h : previous.any joinsBefore = false ∨ ∀ c ∈ cs.head?, Inert c) :
    piecesFrom previous cs = piecesFrom none cs := by
  cases cs with
  | nil => rfl
  | cons c cs =>
    rcases h with hprevious | hhead
    · simp only [piecesFrom, List.length_cons, splitFrom, hprevious, Option.any_none]
    · have hinert := hhead c rfl
      rw [piecesFrom_inert previous hinert, piecesFrom_inert none hinert]

/-! ## Parts -/

/-- Whether a part of a text can be split without regard to the rest: the rest does not go on with a
name, and it makes no call of a name with digits. -/
def Ends (part rest : List Char) : Prop :=
  ∀ c ∈ rest.head?, isNamePart c = false ∧ (c = '(' → part.any isDecimal = false)

theorem backOff_append_of_head {reversed left rest : List Char}
    (h : ∀ c ∈ rest.head?, joinsAfter c = false) :
    backOff reversed (left ++ rest) =
      (backOff reversed left).map fun found => (found.1, found.2 ++ rest) := by
  -- What is behind the text is not looked at, except where the text has ended.
  induction reversed generalizing left with
  | nil => rfl
  | cons d ds ih =>
    have hhead : (left ++ rest).head?.any joinsAfter = left.head?.any joinsAfter := by
      cases left with
      | nil =>
        cases rest with
        | nil => rfl
        | cons c rest => exact h c rfl
      | cons c left => rfl
    unfold backOff
    rw [hhead]
    split
    · exact @ih (d :: left)
    · rfl

theorem takeReference?_append_of_ends {part rest : List Char} (h : Ends part rest) :
    takeReference? (part ++ rest) =
      (takeReference? part).map fun found => (found.1, found.2 ++ rest) := by
  have htake := Reference.take?_append_of_head part fun c hc => (h c hc).1
  cases hfound : Reference.take? part with
  | none =>
    rw [hfound] at htake
    rw [takeReference?_of_take? htake, takeReference?_of_take? hfound]
    rfl
  | some found =>
    obtain ⟨r, left⟩ := found
    rw [hfound] at htake
    have hform := Reference.wellFormed_of_take? hfound
    -- The reference has digits, so no call of the part can follow it.
    have hdecimal : part.any isDecimal = true := by
      obtain ⟨d, hmem, hd⟩ := hform.exists_decimal
      rw [List.any_eq_true, ← Reference.take?_append hfound]
      exact ⟨d, List.mem_append_left left hmem, hd⟩
    have hjoins : ∀ c ∈ rest.head?, joinsAfter c = false := by
      intro c hc
      obtain ⟨hpart, hcall⟩ := h c hc
      by_contra hcontra
      rw [Bool.not_eq_false, joinsAfter, Bool.or_eq_true, decide_eq_true_eq] at hcontra
      rcases hcontra with hname | hparen
      · rw [isNamePart_of_isNameChar hname] at hpart
        cases hpart
      · rw [hcall hparen] at hdecimal
        cases hdecimal
    simp only [takeReference?, htake, hfound, Option.map_some, Option.bind_eq_bind, Option.bind_some,
      backOff_append_of_head hjoins]
    cases backOff r.digits.reverse left <;> rfl

theorem Ends.of_append (part : List Char) {left rest : List Char} (h : Ends (part ++ left) rest) :
    Ends left rest := by
  intro c hc
  obtain ⟨hpart, hcall⟩ := h c hc
  refine ⟨hpart, fun hparen => ?_⟩
  have hany := hcall hparen
  rw [List.any_append, Bool.or_eq_false_iff] at hany
  exact hany.2

/-- The digits that are kept are the first ones of a run. -/
theorem backOff_prefix {reversed rest digits left : List Char}
    (h : backOff reversed rest = some (digits, left)) : digits <+: reversed.reverse := by
  induction reversed generalizing rest with
  | nil => cases h
  | cons d ds ih =>
    unfold backOff at h
    split at h
    · rw [List.reverse_cons]
      exact (ih h).trans (List.prefix_append _ _)
    · cases h
      exact List.prefix_refl _

theorem wellFormed_of_takeReference? {cs rest : List Char} {r : Reference}
    (h : takeReference? cs = some (r, rest)) : r.WellFormed := by
  simp only [takeReference?, Option.bind_eq_bind, Option.bind_eq_some_iff, Prod.exists] at h
  obtain ⟨r', rest', htake, digits, left, hback, hr⟩ := h
  simp only [pure, Option.some.injEq, Prod.mk.injEq] at hr
  obtain ⟨rfl, rfl⟩ := hr
  have hform := Reference.wellFormed_of_take? htake
  have hfirst := backOff_prefix hback
  rw [List.reverse_reverse] at hfirst
  exact ⟨hform.letters_ne_nil, backOff_ne_nil hback, hform.isCapital_letters,
    fun c hc => hform.isDecimal_digits c (hfirst.subset hc)⟩

/-- All digits of a reference by itself are kept. -/
theorem takeReference?_spelling {r : Reference} (h : r.WellFormed) :
    takeReference? r.spelling = some (r, []) := by
  have hback : backOff r.digits.reverse [] = some (r.digits, []) := by
    cases hreverse : r.digits.reverse with
    | nil =>
      rw [List.reverse_eq_nil_iff] at hreverse
      exact absurd hreverse h.digits_ne_nil
    | cons d ds =>
      have hdigits : r.digits = (d :: ds).reverse := by rw [← hreverse, List.reverse_reverse]
      rw [hdigits]
      rfl
  simp only [takeReference?, Reference.take?_spelling h, Option.bind_eq_bind, Option.bind_some,
    hback]
  rfl

/-- A reference by itself is one piece. -/
theorem split_spelling {r : Reference} (h : r.WellFormed) : split r.spelling = [.reference r] := by
  have hfound := takeReference?_spelling h
  obtain ⟨c, cs, hcons, hstart⟩ := Reference.head?_spelling h
  have hmark := isMark_of_isNamePart (isNamePart_of_start hstart)
  rw [hcons] at hfound ⊢
  show piecesFrom none (c :: cs) = _
  rw [piecesFrom_reference hmark rfl hfound, piecesFrom_nil]

/-- A part without marks of quoted texts is split by itself. -/
theorem piecesFrom_append {previous : Option Char} {part rest : List Char}
    (hmarks : ∀ c ∈ part, isMark c = false) (hends : Ends part rest) :
    piecesFrom previous (part ++ rest) =
      piecesFrom previous part ++ piecesFrom (part.getLast?.or previous) rest := by
  -- A reference takes off more than one character, so the induction is on the length of the part.
  induction hlength : part.length using Nat.strong_induction_on generalizing previous part with
  | h k ih =>
    subst hlength
    cases part with
    | nil => rfl
    | cons c cs =>
      obtain ⟨hmark, hrest⟩ := List.forall_mem_cons.mp hmarks
      have hreference := takeReference?_append_of_ends hends
      rw [List.cons_append] at hreference
      have hsingle : Ends cs rest := Ends.of_append [c] hends
      -- The whole is split like the part: at a name that goes on, at a reference and elsewhere.
      by_cases hjoins : previous.any joinsBefore = true
      · rw [List.cons_append, piecesFrom_verbatim hmark (Or.inl hjoins),
          piecesFrom_verbatim hmark (Or.inl hjoins), ih cs.length (by simp) hrest hsingle rfl]
        simp [List.getLast?_cons, Option.or_some]
      · rw [Bool.not_eq_true] at hjoins
        cases hfound : takeReference? (c :: cs) with
        | none =>
          rw [hfound] at hreference
          rw [List.cons_append, piecesFrom_verbatim hmark (Or.inr hreference),
            piecesFrom_verbatim hmark (Or.inr hfound), ih cs.length (by simp) hrest hsingle rfl]
          simp [List.getLast?_cons, Option.or_some]
        | some found =>
          obtain ⟨r, left⟩ := found
          rw [hfound] at hreference
          have happend := takeReference?_append hfound
          have hform := wellFormed_of_takeReference? hfound
          have hleft : ∀ c ∈ left, isMark c = false := fun c hc =>
            hmarks c (by rw [← happend]; exact List.mem_append_right _ hc)
          have hends' : Ends left rest := by
            rw [← happend] at hends
            exact Ends.of_append r.spelling hends
          have hlt := length_le_of_cons happend (takeReference?_spelling_ne_nil hfound)
          -- A reference ends with a digit, which precedes what is left of the part.
          have hlast : (c :: cs).getLast?.or previous = left.getLast?.or r.digits.getLast? := by
            rw [← happend]
            obtain ⟨d, ds, hdigits⟩ := List.exists_cons_of_ne_nil hform.digits_ne_nil
            cases left with
            | nil => simp [Reference.getLast?_spelling hform, hdigits, List.getLast?_cons]
            | cons e left => simp [List.getLast?_append, List.getLast?_cons]
          rw [List.cons_append, piecesFrom_reference hmark hjoins hreference,
            piecesFrom_reference hmark hjoins hfound,
            ih left.length (by simp only [List.length_cons]; omega) hleft hends' rfl, hlast]
          rfl

/-! ## The references among the pieces -/

theorem flatten_piecesFrom (previous : Option Char) (cs : List Char) :
    ((piecesFrom previous cs).map text).flatten = cs :=
  flatten_splitFrom cs.length previous cs (Nat.le_refl _)

theorem mem_of_mem_piecesFrom {previous : Option Char} {cs : List Char} {p : Piece} {c : Char}
    (hp : p ∈ piecesFrom previous cs) (hc : c ∈ p.text) : c ∈ cs := by
  rw [← flatten_piecesFrom previous cs]
  exact List.mem_flatten_of_mem (List.mem_map_of_mem hp) hc

theorem wellFormed_of_mem_piecesFrom {previous : Option Char} {cs : List Char} {r : Reference}
    (h : Piece.reference r ∈ piecesFrom previous cs) : r.WellFormed := by
  -- What is left behind a piece is shorter, but it need not be the tail of the text.
  induction hlength : cs.length using Nat.strong_induction_on generalizing previous cs with
  | h k ih =>
    subst hlength
    cases cs with
    | nil => cases h
    | cons c cs =>
      rcases piecesFrom_cases previous c cs with ⟨literal, rest, hfound, hpieces⟩ |
        ⟨r', rest, hfound, hpieces⟩ | hpieces
      · rw [hpieces] at h
        have hlt := length_le_of_cons (takeLiteral?_append hfound) (takeLiteral?_ne_nil hfound)
        rcases List.mem_cons.mp h with hhead | hrest
        · cases hhead
        · exact ih rest.length (by simp only [List.length_cons]; omega) hrest rfl
      · rw [hpieces] at h
        have hlt := length_le_of_cons (takeReference?_append hfound)
          (takeReference?_spelling_ne_nil hfound)
        rcases List.mem_cons.mp h with hhead | hrest
        · cases hhead
          exact wellFormed_of_takeReference? hfound
        · exact ih rest.length (by simp only [List.length_cons]; omega) hrest rfl
      · rw [hpieces] at h
        rcases List.mem_cons.mp h with hhead | hrest
        · cases hhead
        · exact ih cs.length (by simp only [List.length_cons]; omega) hrest rfl

instance decidableForallReference {p : Reference → Prop} [DecidablePred p] :
    (ps : List Piece) → Decidable (∀ r, Piece.reference r ∈ ps → p r)
  | [] => isTrue nofun
  | .verbatim _ :: ps =>
    have := decidableForallReference (p := p) ps
    decidable_of_iff (∀ r, Piece.reference r ∈ ps → p r) (by simp)
  | .reference r :: ps =>
    have := decidableForallReference (p := p) ps
    decidable_of_iff (p r ∧ ∀ r, Piece.reference r ∈ ps → p r) (by simp)

theorem reference_notMem_piecesFrom {cs : List Char} (h : cs.any isDecimal = false)
    (previous : Option Char) (r : Reference) : Piece.reference r ∉ piecesFrom previous cs := by
  intro hr
  obtain ⟨d, hmem, hd⟩ := (wellFormed_of_mem_piecesFrom hr).exists_decimal
  rw [List.any_eq_false] at h
  exact h d (mem_of_mem_piecesFrom hr hmem) hd

end Piece

/-! ## Moving pieces -/

namespace Reference

/-- A reference that moves within the sheet becomes a reference. -/
theorem exists_wellFormed_of_shifted {r : Reference} {rows columns : Int} {moved : List Char}
    (h : r.shifted rows columns = .ok moved) (hvalid : moved ≠ invalidReference) :
    ∃ m : Reference, m.WellFormed ∧ moved = m.spelling := by
  obtain ⟨a, c, row, digits, -, -, -, -, rfl, -, rfl⟩ := shifted_eq_ok h hvalid
  exact ⟨_, wellFormed_label a.columnAnchored a.rowAnchored c row, rfl⟩

end Reference

/-- The text that some pieces become when they move. No reference leaves the sheet. -/
inductive Moves (rows columns : Int) : List Piece → List Char → Prop
  | nil : Moves rows columns [] []
  | verbatim (text : List Char) {ps : List Piece} {out : List Char} :
      Moves rows columns ps out → Moves rows columns (.verbatim text :: ps) (text ++ out)
  | reference {r : Reference} {text : List Char} {ps : List Piece} {out : List Char} :
      r.shifted rows columns = .ok text → text ≠ invalidReference →
      Moves rows columns ps out → Moves rows columns (.reference r :: ps) (text ++ out)

namespace Moves

variable {rows columns : Int}

theorem of_append {ps qs : List Piece} {all : List Char} (h : Moves rows columns (ps ++ qs) all) :
    ∃ out more, all = out ++ more ∧ Moves rows columns ps out ∧ Moves rows columns qs more := by
  induction ps generalizing all with
  | nil => exact ⟨[], all, rfl, .nil, h⟩
  | cons p ps ih =>
    cases h with
    | verbatim text hrest =>
      obtain ⟨out, more, rfl, hps, hqs⟩ := ih hrest
      exact ⟨text ++ out, more, (List.append_assoc _ _ _).symm, .verbatim text hps, hqs⟩
    | reference hshifted hvalid hrest =>
      obtain ⟨out, more, rfl, hps, hqs⟩ := ih hrest
      exact ⟨_ ++ out, more, (List.append_assoc _ _ _).symm, .reference hshifted hvalid hps, hqs⟩

theorem of_verbatim {text : List Char} {ps : List Piece} {all : List Char}
    (h : Moves rows columns (.verbatim text :: ps) all) :
    ∃ out, all = text ++ out ∧ Moves rows columns ps out := by
  cases h with
  | verbatim _ hrest => exact ⟨_, rfl, hrest⟩

theorem unique {ps : List Piece} {out out' : List Char} (h : Moves rows columns ps out)
    (h' : Moves rows columns ps out') : out = out' := by
  -- Each piece becomes one text alone, so two results are compared piece by piece.
  induction h generalizing out' with
  | nil =>
    cases h'
    rfl
  | verbatim text _ ih =>
    cases h' with
    | verbatim _ hrest => rw [ih hrest]
  | reference hshifted _ _ ih =>
    cases h' with
    | reference hshifted' _ hrest =>
      rw [hshifted] at hshifted'
      cases hshifted'
      rw [ih hrest]

theorem mapM_shifted {ps : List Piece} {out : List Char} (h : Moves rows columns ps out) :
    ∃ parts, ps.mapM (Piece.shifted rows columns) = .ok parts ∧ parts.flatten = out := by
  simp only [mapM_eq_ok_iff]
  -- The text of each piece is put in front of those that follow it.
  induction h with
  | nil => exact ⟨[], .nil, rfl⟩
  | verbatim text _ ih =>
    obtain ⟨parts, hparts, rfl⟩ := ih
    exact ⟨text :: parts, .cons rfl hparts, rfl⟩
  | @reference r text _ _ hshifted _ _ ih =>
    obtain ⟨parts, hparts, rfl⟩ := ih
    exact ⟨text :: parts, .cons hshifted hparts, rfl⟩

theorem exists_of_forall {ps : List Piece} (h : ∀ r, Piece.reference r ∈ ps →
    ∃ moved, r.shifted rows columns = .ok moved ∧ moved ≠ invalidReference) :
    ∃ out, Moves rows columns ps out := by
  -- From the last piece on, since the text is put together from behind.
  induction ps with
  | nil => exact ⟨[], .nil⟩
  | cons p ps ih =>
    obtain ⟨out, hout⟩ := ih fun r hr => h r (List.mem_cons_of_mem p hr)
    cases p with
    | verbatim text => exact ⟨text ++ out, .verbatim text hout⟩
    | reference r =>
      obtain ⟨moved, hshifted, hvalid⟩ := h r List.mem_cons_self
      exact ⟨moved ++ out, .reference hshifted hvalid hout⟩

theorem shiftReferences_eq {s moved : String}
    (h : Moves rows columns (Piece.split s.toList) moved.toList) :
    shiftReferences s rows columns = .ok moved := by
  obtain ⟨parts, hparts, hflatten⟩ := h.mapM_shifted
  unfold shiftReferences
  rw [hparts]
  show Except.ok (String.ofList parts.flatten) = .ok moved
  rw [hflatten, String.ofList_toList]

theorem of_mapM_shifted {ps : List Piece} {parts : List (List Char)}
    (h : ps.mapM (Piece.shifted rows columns) = .ok parts)
    (hvalid : ∀ r, Piece.reference r ∈ ps → r.shifted rows columns ≠ .ok invalidReference) :
    Moves rows columns ps parts.flatten := by
  have hall := mapM_eq_ok_iff.mp h
  clear h
  -- Along the pieces and their texts, which the steps of the fold no longer matter to.
  induction hall with
  | nil => exact .nil
  | @cons p text ps parts hp _ ih =>
    have hrest := ih fun r hr => hvalid r (List.mem_cons_of_mem p hr)
    cases p with
    | verbatim text' =>
      cases hp
      exact .verbatim text hrest
    | reference r =>
      -- A reference that has left the sheet is excluded by `hvalid`.
      apply Moves.reference hp _ hrest
      intro hinvalid
      rw [hinvalid] at hp
      exact hvalid r List.mem_cons_self hp

theorem eq_of_verbatim {ps : List Piece} {out : List Char} (h : Moves rows columns ps out)
    (hps : ∀ r, Piece.reference r ∉ ps) : out = (ps.map Piece.text).flatten := by
  induction h with
  | nil => rfl
  | verbatim text _ ih =>
    rw [ih fun r hr => hps r (List.mem_cons_of_mem _ hr)]
    rfl
  | reference _ _ _ _ => exact absurd List.mem_cons_self (hps _)

/-- Pieces stay as they are, or there are digits in what they become. -/
theorem eq_or_exists_decimal {ps : List Piece} {out : List Char} (h : Moves rows columns ps out) :
    out = (ps.map Piece.text).flatten ∨ ∃ c ∈ out, isDecimal c = true := by
  -- The first reference among the pieces decides, and it has digits.
  induction h with
  | nil => exact Or.inl rfl
  | verbatim text _ ih =>
    rcases ih with rfl | ⟨c, hmem, hc⟩
    · exact Or.inl rfl
    · exact Or.inr ⟨c, List.mem_append_right text hmem, hc⟩
  | reference hshifted hvalid _ _ =>
    -- What the reference becomes ends with the digits of its row.
    obtain ⟨m, hform, rfl⟩ := Reference.exists_wellFormed_of_shifted hshifted hvalid
    obtain ⟨d, hmem, hd⟩ := hform.exists_decimal
    exact Or.inr ⟨d, List.mem_append_left _ hmem, hd⟩

/-- Names stay within the characters of names. -/
theorem isNamePart_of_mem {ps : List Piece} {out : List Char} (h : Moves rows columns ps out)
    (hps : ∀ text, Piece.verbatim text ∈ ps → ∀ c ∈ text, isNamePart c = true) :
    ∀ c ∈ out, isNamePart c = true := by
  -- A character comes from a piece that stays or from a spelling, and both are made of such
  -- characters.
  induction h with
  | nil => nofun
  | verbatim text _ ih =>
    intro c hc
    rcases List.mem_append.mp hc with htext | hrest
    · exact hps text List.mem_cons_self c htext
    · exact ih (fun text htext => hps text (List.mem_cons_of_mem _ htext)) c hrest
  | reference hshifted hvalid _ ih =>
    intro c hc
    rcases List.mem_append.mp hc with htext | hrest
    · obtain ⟨m, hform, rfl⟩ := Reference.exists_wellFormed_of_shifted hshifted hvalid
      exact Reference.isNamePart_of_mem_spelling hform htext
    · exact ih (fun text htext => hps text (List.mem_cons_of_mem _ htext)) c hrest

/-- The first character stays, unless both it and the one in its place start names. -/
theorem head_eq_or_isNameStart {previous : Option Char} {cs out : List Char}
    (h : Moves rows columns (Piece.piecesFrom previous cs) out) :
    out.head? = cs.head? ∨ ∃ c d, cs.head? = some c ∧ out.head? = some d ∧
      (c = '$' ∨ isCapital c = true) ∧ (d = '$' ∨ isCapital d = true) := by
  cases cs with
  | nil =>
    cases h
    exact Or.inl rfl
  | cons c cs =>
    rcases Piece.piecesFrom_cases previous c cs with ⟨literal, rest, hfound, hpieces⟩ |
      ⟨r, rest, hfound, hpieces⟩ | hpieces
    · rw [hpieces] at h
      obtain ⟨more, rfl, -⟩ := h.of_verbatim
      rw [← Piece.takeLiteral?_append hfound]
      obtain ⟨d, ds, rfl⟩ := List.exists_cons_of_ne_nil (Piece.takeLiteral?_ne_nil hfound)
      exact Or.inl rfl
    · -- A reference gives way to a reference.
      rw [hpieces] at h
      obtain ⟨d, ds, hd, hstart⟩ :=
        Reference.head?_spelling (Piece.wellFormed_of_takeReference? hfound)
      have happend := Piece.takeReference?_append hfound
      rw [hd] at happend
      cases h with
      | reference hshifted hvalid _ =>
        obtain ⟨m, hform, rfl⟩ := Reference.exists_wellFormed_of_shifted hshifted hvalid
        obtain ⟨e, es, he, hestart⟩ := Reference.head?_spelling hform
        refine Or.inr ⟨d, e, ?_, ?_, hstart, hestart⟩
        · rw [← happend]
          rfl
        · rw [he]
          rfl
    · rw [hpieces] at h
      obtain ⟨more, rfl, -⟩ := h.of_verbatim
      exact Or.inl rfl

end Moves

theorem shiftReferences_eq_ok_iff_of_valid {text shifted : String} {rows columns : Int}
    (hvalid : ∀ r, Piece.reference r ∈ Piece.split text.toList →
      r.shifted rows columns ≠ .ok invalidReference) :
    shiftReferences text rows columns = .ok shifted ↔
      Moves rows columns (Piece.split text.toList) shifted.toList := by
  constructor
  · intro h
    unfold shiftReferences at h
    cases hparts : (Piece.split text.toList).mapM (Piece.shifted rows columns) with
    | error e =>
      rw [hparts] at h
      cases h
    | ok parts =>
      rw [hparts] at h
      cases h
      rw [String.toList_ofList]
      exact Moves.of_mapM_shifted hparts hvalid
  · exact Moves.shiftReferences_eq

end Spreadsheet
