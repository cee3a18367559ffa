import Spreadsheet.Proofs.Evaluation.Depth
import Spreadsheet.Proofs.Evaluation.Integers
import Spreadsheet.Proofs.Formula.Shifting
import Spreadsheet.Proofs.Number.Running

/-!
# Chains of operands

A chain of operands with one operator between them is read from the left, so that each operand joins the
tree of all before it. A call of the function of the operator on the operands comes to the same number.
It is one formula whatever the number of operands, while the formulas of the chain lie inside one
another, and a chain that is too long for the depth comes to `nan`.
-/

namespace Spreadsheet

open Text Grammar

/-! ## Rows of operands -/

def chainRow (op : Arithmetic) (ls : List Lexeme) : List Lexeme :=
  ls.intersperse (.operator (.arithmetic op))

def callRow (f : Function) (ls : List Lexeme) : List Lexeme :=
  .identifier f.name :: .leftParen :: ls.intersperse .comma ++ [.rightParen]

inductive Grid.IsTerm (g : Grid) : Lexeme → Prop
  | number {s : String} : (Lexeme.number s).Spells s.toList → IsTerm g (.number s)
  | cell {r : Reference} :
      r.WellFormed → (∀ a, r.address? = some a → (g.content a).isFormula = false) →
      IsTerm g (.identifier (String.ofList r.spelling))

section Intersperse

variable {sep : Lexeme} {ls : List Lexeme}

theorem intersperse_eq_flatMap (sep l : Lexeme) (ls : List Lexeme) :
    (l :: ls).intersperse sep = l :: ls.flatMap fun m => [sep, m] := by
  induction ls generalizing l with
  | nil => rfl
  | cons m ls ih =>
    rw [List.intersperse_cons_cons, ih, List.flatMap_cons]
    rfl

theorem forall_mem_intersperse {P : Lexeme → Prop} (hsep : P sep) (hls : ∀ l ∈ ls, P l) :
    ∀ l ∈ ls.intersperse sep, P l := by
  -- There is a separator in front of every operand but the first one.
  induction ls with
  | nil => exact List.forall_mem_nil _
  | cons l ls ih =>
    obtain ⟨hl, hls⟩ := List.forall_mem_cons.mp hls
    cases ls with
    | nil => exact List.forall_mem_singleton.mpr hl
    | cons m ls =>
      rw [List.intersperse_cons_cons]
      exact List.forall_mem_cons.mpr ⟨hl, List.forall_mem_cons.mpr ⟨hsep, ih hls⟩⟩

theorem subset_intersperse (sep : Lexeme) (ls : List Lexeme) : ls ⊆ ls.intersperse sep := by
  induction ls with
  | nil => exact List.nil_subset _
  | cons l ls ih =>
    cases ls with
    | nil => exact List.Subset.refl _
    | cons m ls =>
      rw [List.intersperse_cons_cons]
      exact List.cons_subset_cons l (List.subset_cons_of_subset sep ih)

theorem isChain_intersperse (sep : Lexeme) (hoperand : sep.isOperand = false)
    (hparen : sep ≠ .leftParen) (ls : List Lexeme) : (ls.intersperse sep).IsChain Follows := by
  induction ls with
  | nil => exact List.isChain_nil
  | cons l ls ih =>
    cases ls with
    | nil => exact List.isChain_singleton l
    | cons m ls =>
      rw [List.intersperse_cons_cons]
      exact isChain_join (List.isChain_singleton l) hoperand hparen ih

theorem modest_flatMap {levels : Nat}
    (hsep : ∀ l : Lexeme, l.isOperand = true → Modest [sep, l] levels)
    (hls : ∀ l ∈ ls, l.isOperand = true) : Modest (ls.flatMap fun l => [sep, l]) levels := by
  induction ls with
  | nil => exact .nil levels
  | cons l ls ih =>
    obtain ⟨hl, hls⟩ := List.forall_mem_cons.mp hls
    exact (hsep l hl).append (ih hls)

theorem modest_intersperse {levels : Nat}
    (hsep : ∀ l : Lexeme, l.isOperand = true → Modest [sep, l] levels)
    (hls : ∀ l ∈ ls, l.isOperand = true) : Modest (ls.intersperse sep) levels := by
  cases ls with
  | nil => exact .nil levels
  | cons l ls =>
    obtain ⟨hl, hls⟩ := List.forall_mem_cons.mp hls
    rw [intersperse_eq_flatMap]
    exact (Modest.operand hl levels).append (modest_flatMap hsep hls)

end Intersperse

namespace Grid.IsTerm

variable {g : Grid} {ls : List Lexeme}

theorem simple {l : Lexeme} (h : g.IsTerm l) : l.Simple := by
  cases h with
  | number hspells => exact ⟨hspells, nofun⟩
  | cell hform _ => exact Lexeme.simple_reference hform

theorem isOperand {l : Lexeme} (h : g.IsTerm l) : l.isOperand = true := by
  cases h with
  | number _ => rfl
  | cell _ _ => rfl

theorem fits_chain {op : Arithmetic} {cs : List Char} (h : ∀ l ∈ ls, g.IsTerm l)
    (hspaced : Spaced cs (chainRow op ls)) : Fits cs (chainRow op ls) 1 where
  spaced := hspaced
  simple := forall_mem_intersperse (Lexeme.simple_arithmetic op) fun l hl => (h l hl).simple
  modest := modest_intersperse (fun _ hl => .operator hl op 1) fun l hl => (h l hl).isOperand

theorem fits_call {f : Function} {cs : List Char} (h : ∀ l ∈ ls, g.IsTerm l)
    (hspaced : Spaced cs (callRow f ls)) : Fits cs (callRow f ls) 1 where
  spaced := hspaced
  simple := by
    have hname := (Lexeme.simple_function f.map_toUpper_name).1
    rw [String.ofList_toList] at hname
    have hitems := forall_mem_intersperse Lexeme.simple_comma fun l hl => (h l hl).simple
    exact List.forall_mem_cons.mpr ⟨hname, List.forall_mem_cons.mpr ⟨Lexeme.simple_leftParen,
      List.forall_mem_append.mpr ⟨hitems, List.forall_mem_singleton.mpr Lexeme.simple_rightParen⟩⟩⟩
  modest := by
    have hcomma : ∀ l : Lexeme, l.isOperand = true → Modest [.comma, l] 0 := fun _ hl =>
      (Modest.comma 0).append (.operand hl 0)
    have hitems := modest_intersperse hcomma fun l hl => (h l hl).isOperand
    exact (Modest.operand (l := .identifier f.name) rfl 1).append hitems.group

end Grid.IsTerm

theorem isChain_chainRow (op : Arithmetic) (ls : List Lexeme) :
    (chainRow op ls).IsChain Follows :=
  isChain_intersperse (.operator (.arithmetic op)) rfl (by simp) ls

theorem isChain_callRow (f : Function) (ls : List Lexeme) : (callRow f ls).IsChain Follows :=
  isChain_call f.capitals_name.symm (isChain_intersperse .comma rfl (by simp) ls)

theorem subset_callRow (f : Function) (ls : List Lexeme) : ls ⊆ callRow f ls := by
  intro l hl
  have hitem := List.mem_append_left [Lexeme.rightParen] (subset_intersperse .comma ls hl)
  exact List.mem_cons_of_mem _ (List.mem_cons_of_mem _ hitem)

/-! ## Trees of operands -/

def Content.chained (op : Arithmetic) (first : Content) (rest : List Content) : Content :=
  rest.foldl (fun tree v => .call (.aggregate op.function) [tree, v]) first

theorem Content.chained_append (op : Arithmetic) (first : Content) (rest : List Content)
    (v : Content) : chained op first (rest ++ [v]) =
      .call (.aggregate op.function) [chained op first rest, v] :=
  List.foldl_concat _ first v rest

theorem Content.isFormula_chained (op : Arithmetic) (first : Content) {rest : List Content}
    (hne : rest ≠ []) : (chained op first rest).isFormula = true := by
  obtain ⟨front, last, rfl⟩ := (List.eq_nil_or_concat' rest).resolve_left hne
  rw [chained_append]
  rfl

theorem Grammar.Operand.of_isFormula {v : Content} (h : v.isFormula = true) : Operand v v := by
  obtain ⟨name, args, rfl⟩ := Content.exists_of_isFormula h
  exact .tree name args

def Stands (l : Lexeme) (v : Content) : Prop :=
  Atom [l] v

/-- A kind of rows that an operand can join has all chains of operands. -/
theorem derives_chained (op : Arithmetic) {P : List Lexeme → Content → Prop}
    (hstep : ∀ {ms : List Lexeme} {l : Lexeme} {a b : Content}, P ms a → Stands l b →
      P (ms ++ .operator (.arithmetic op) :: [l]) (.call (.aggregate op.function) [a, b]))
    {row ls : List Lexeme} {first : Content} {rest : List Content}
    (h : List.Forall₂ Stands ls rest) (hrow : P row first) :
    P (row ++ ls.flatMap fun l => [.operator (.arithmetic op), l]) (.chained op first rest) := by
  -- The tree so far is the left part of what follows, so the row grows at its end.
  induction h generalizing row first with
  | nil =>
    rw [List.flatMap_nil, List.append_nil]
    exact hrow
  | cons hl _ ih =>
    have hnext := ih (hstep hrow hl)
    rw [List.append_assoc] at hnext
    exact hnext

theorem comparative_chainRow (op : Arithmetic) {l : Lexeme} {ls : List Lexeme} {first : Content}
    {rest : List Content} (hl : Stands l first) (h : List.Forall₂ Stands ls rest) :
    Comparative (chainRow op (l :: ls)) (.chained op first rest) := by
  unfold chainRow
  rw [intersperse_eq_flatMap]
  cases hlevel : op.isAdditive with
  | true =>
    have hsum := derives_chained op (P := Additive)
      (fun ha hb => .step op hlevel ha (.single (.atom hb))) h (.single (.single (.atom hl)))
    exact .single hsum
  | false =>
    have hlevel' : op.isMultiplicative = true := congrArg not hlevel
    have hproduct := derives_chained op (P := Multiplicative)
      (fun ha hb => .step op hlevel' ha (.atom hb)) h (.single (.atom hl))
    exact .single (.single hproduct)

theorem items_intersperse {ls : List Lexeme} {vs : List Content} (h : List.Forall₂ Stands ls vs)
    (hne : ls ≠ []) : Items (ls.intersperse .comma) vs := by
  -- The last argument is followed by no comma.
  induction h with
  | nil => exact absurd rfl hne
  | cons hl hrest ih =>
    have hitem := Comparative.single (.single (.single (.atom hl)))
    cases hrest with
    | nil => exact .last hitem
    | cons hm hrest =>
      rw [List.intersperse_cons_cons]
      exact .more hitem (ih nofun)

theorem comparative_callRow (f : Function) {ls : List Lexeme} {vs : List Content}
    (h : List.Forall₂ Stands ls vs) (hne : ls ≠ []) : Comparative (callRow f ls) (.call f vs) := by
  have hitems := items_intersperse h hne
  exact .single (.single (.single (.atom (.call f.capitals_name.symm (.some hitems)))))

/-! ## The values of such trees -/

namespace Grid

variable {g : Grid}

def Settled (g : Grid) (v : Content) : Prop :=
  ∀ eval eval' : Evaluator, g.resolveWith eval v = g.resolveWith eval' v

theorem IsTerm.exists_settled {l : Lexeme} (h : g.IsTerm l) (hread : l.Readable) :
    ∃ v, Stands l v ∧ g.Settled v := by
  cases h with
  | number _ =>
    obtain ⟨n, hn⟩ := hread _ rfl
    exact ⟨.number n, .number hn, fun _ _ => rfl⟩
  | @cell r hform hcell =>
    -- A cell without a formula has its value whatever the depth, so the reference is settled.
    refine ⟨.text (String.ofList r.spelling), .name _, fun eval eval' => ?_⟩
    have hreference : isReference (String.ofList r.spelling).toList = true := by
      rw [String.toList_ofList]
      exact isReference_spelling hform
    have hspelled := Reference.address?_eq_ofSpelling? hform
    rw [← String.toList_ofList (l := r.spelling)] at hspelled
    have hreferent : (g.referent (String.ofList r.spelling)).isFormula = false := by
      cases haddress : r.address? with
      | none =>
        rw [referent_eq_blank (hspelled.symm.trans haddress)]
        rfl
      | some a =>
        rw [referent_eq (hspelled.symm.trans haddress)]
        exact hcell a haddress
    show g.tokenWith eval _ = g.tokenWith eval' _
    rw [tokenWith_of_isReference hreference, tokenWith_of_isReference hreference,
      Content.valueWith_of_isFormula hreferent, Content.valueWith_of_isFormula hreferent]

theorem exists_settled {ls : List Lexeme} (hterms : ∀ l ∈ ls, g.IsTerm l)
    (hread : ∀ l ∈ ls, l.Readable) :
    ∃ vs, List.Forall₂ Stands ls vs ∧ ∀ v ∈ vs, g.Settled v := by
  induction ls with
  | nil => exact ⟨[], .nil, List.forall_mem_nil _⟩
  | cons l ls ih =>
    obtain ⟨hl, hls⟩ := List.forall_mem_cons.mp hterms
    obtain ⟨hlread, hlsread⟩ := List.forall_mem_cons.mp hread
    obtain ⟨v, hv, hsettled⟩ := hl.exists_settled hlread
    obtain ⟨vs, hvs, hallsettled⟩ := ih hls hlsread
    exact ⟨v :: vs, .cons hv hvs, List.forall_mem_cons.mpr ⟨hsettled, hallsettled⟩⟩

def settledValue (g : Grid) (v : Content) : Content :=
  g.resolveWith (g.evaluateWithin 0) v

theorem map_resolveWith_of_settled {vs : List Content} (h : ∀ v ∈ vs, g.Settled v)
    (eval : Evaluator) : vs.map (g.resolveWith eval) = vs.map g.settledValue :=
  List.map_congr_left fun v hv => h v hv eval _

/-- A call on settled arguments needs one level. -/
theorem evaluateWithin_settled {f : Aggregate} {vs : List Content} (h : ∀ v ∈ vs, g.Settled v)
    (levels : Nat) :
    g.evaluateWithin (levels + 1) (.text f.name) vs =
      Aggregate.outcome (f.compute (vs.map g.settledValue)) := by
  rw [evaluateWithin_aggregate, map_resolveWith_of_settled h]

/-- A chain of settled arguments needs a level for each operator. The value of the chain of all but the
last argument is a single argument of the formula around it. -/
theorem resolveWith_chained {op : Arithmetic} {first : Content} {rest : List Content}
    (h : ∀ v ∈ first :: rest, g.Settled v) (hne : rest ≠ []) (levels : Nat) :
    g.resolveWith (g.evaluateWithin levels) (.chained op first rest) =
      if rest.length ≤ levels then
        Aggregate.outcome (op.function.compute ((first :: rest).map g.settledValue))
      else .nan := by
  -- The last operand stands in the outermost formula, so the chain is taken apart from its end.
  induction rest using List.reverseRecOn generalizing levels with
  | nil => exact absurd rfl hne
  | append_singleton rest v ih =>
    have hlength : (rest ++ [v]).length = rest.length + 1 := List.length_append
    rw [Content.chained_append]
    show g.evaluateWithin levels (.text op.function.name) [.chained op first rest, v] = _
    cases levels with
    | zero =>
      rw [if_neg (by omega)]
      rfl
    | succ levels =>
      by_cases hnil : rest = []
      · -- The innermost formula has two settled arguments.
        subst hnil
        rw [if_pos (hlength ▸ Nat.le_add_left 1 levels)]
        exact evaluateWithin_settled h levels
      · rw [← List.cons_append, List.forall_mem_append, List.forall_mem_singleton] at h
        obtain ⟨hbefore, hv⟩ := h
        rw [evaluateWithin_aggregate, List.map_cons, List.map_singleton, ih hbefore hnil,
          hv _ (g.evaluateWithin 0), ← List.cons_append, List.map_append]
        by_cases hle : rest.length ≤ levels
        · rw [if_pos hle, if_pos (by omega)]
          exact Aggregate.outcome_pair (List.cons_ne_nil _ _) _
        · rw [if_neg hle, if_neg (by omega)]
          exact Aggregate.outcome_eq_nan List.mem_cons_self

/-! ## Reading and evaluating chains -/

theorem le_levelsAt_iff {n : Nat} (hn : 0 < n) (depth : Int) :
    n ≤ levelsAt depth ↔ (n : Int) ≤ maxDepth + 1 - depth := by
  unfold levelsAt
  omega

/-- A text that can be evaluated has only numbers that can be read. -/
theorem readable_of_evaluateText {text : String} {ls : List Lexeme} {levels : Nat} {depth : Int}
    {v : Content} (hfits : Fits text.toList ls levels) (hchain : ls.IsChain Follows)
    (h : g.evaluateText depth text = .ok v) : ∀ l ∈ ls, l.Readable := by
  obtain ⟨ts, hscan, rfl⟩ := Token.scan_of_cut (hfits.spaced.cut_of_simple hfits.simple hchain)
  unfold evaluateText at h
  rw [Formula.parse_eq_ofTokens hscan] at h
  cases htree : Formula.ofTokens ts with
  | error e =>
    rw [htree] at h
    cases h
  | ok tree => exact Formula.readable_of_ofTokens htree

theorem evaluateText_chainRow {op : Arithmetic} {l : Lexeme} {ls : List Lexeme} {first : Content}
    {rest : List Content} {text : String} (hfits : Fits text.toList (chainRow op (l :: ls)) 1)
    (hl : Stands l first) (hls : List.Forall₂ Stands ls rest)
    (hsettled : ∀ v ∈ first :: rest, g.Settled v) (hne : rest ≠ []) (depth : Int) :
    g.evaluateText depth text = .ok
      (if rest.length ≤ levelsAt depth then
        Aggregate.outcome (op.function.compute ((first :: rest).map g.settledValue))
      else .nan) := by
  have hformula := Content.isFormula_chained op first hne
  have hwhole : Whole (chainRow op (l :: ls)) (.chained op first rest) :=
    .mk (comparative_chainRow op hl hls) (.of_isFormula hformula)
  rw [evaluateText_of_parse (Formula.parse_of_fits hfits (by decide) hwhole).1,
    ← resolveWith_chained hsettled hne, resolveWith_of_isFormula hformula]
  rfl

theorem evaluateText_callRow {f : Aggregate} {ls : List Lexeme} {vs : List Content} {text : String}
    (hfits : Fits text.toList (callRow (.aggregate f) ls) 1) (hls : List.Forall₂ Stands ls vs)
    (hne : ls ≠ []) (hsettled : ∀ v ∈ vs, g.Settled v) {depth : Int} {levels : Nat}
    (hlevels : levelsAt depth = levels + 1) :
    g.evaluateText depth text = .ok (Aggregate.outcome (f.compute (vs.map g.settledValue))) := by
  have hwhole : Whole (callRow (.aggregate f) ls) (.call (.aggregate f) vs) :=
    .mk (comparative_callRow _ hls hne) (.tree _ _)
  rw [evaluateText_of_parse (Formula.parse_of_fits hfits (by decide) hwhole).1]
  show Except.ok (g.evaluateWithin (levelsAt depth) (.text f.name) vs) = _
  rw [hlevels, evaluateWithin_settled hsettled]

/-- A chain of operands and a call of the function of its operator on the operands have the same value,
down to the kind of number and the sign of a zero. Only a chain that is too long for the depth is `nan`.
Neither text is a formula if a number in it cannot be read. -/
theorem evaluateText_chain {op : Arithmetic} {ls : List Lexeme} {chain call : String}
    (hterms : ∀ l ∈ ls, g.IsTerm l) (hlength : 2 ≤ ls.length)
    (hchain : Spaced chain.toList (chainRow op ls))
    (hcall : Spaced call.toList (callRow (.aggregate op.function) ls)) (depth : Int) :
    ((∀ l ∈ ls, l.Readable) →
      ((ls.length : Int) - 1 ≤ maxDepth + 1 - depth →
        ∃ v, g.evaluateText depth chain = .ok v ∧ g.evaluateText depth call = .ok v) ∧
      (maxDepth + 1 - depth < (ls.length : Int) - 1 → g.evaluateText depth chain = .ok .nan)) ∧
    ((¬∀ l ∈ ls, l.Readable) →
      ∀ v, g.evaluateText depth chain ≠ .ok v ∧ g.evaluateText depth call ≠ .ok v) := by
  have hchainFits := IsTerm.fits_chain hterms hchain
  have hcallFits := IsTerm.fits_call hterms hcall
  constructor
  · intro hread
    obtain ⟨vs, hvs, hsettled⟩ := exists_settled hterms hread
    cases hvs with
    | nil => cases hlength
    | @cons l first ls rest hl hls =>
      -- The chain has one operator fewer than terms, and that is the number of levels it needs.
      have hsame : ls.length = rest.length := hls.length_eq
      rw [List.length_cons] at hlength ⊢
      have hpos : 0 < rest.length := by omega
      have hlevels := le_levelsAt_iff hpos depth
      rw [evaluateText_chainRow hchainFits hl hls hsettled (List.ne_nil_of_length_pos hpos)]
      constructor
      · intro hshort
        have hle : rest.length ≤ levelsAt depth := by omega
        obtain ⟨levels, hdepth⟩ := Nat.exists_eq_add_one_of_ne_zero (Nat.ne_of_gt (hpos.trans_le hle))
        rw [if_pos hle]
        exact ⟨_, rfl, evaluateText_callRow hcallFits (.cons hl hls) nofun hsettled hdepth⟩
      · intro hlong
        rw [if_neg (by omega)]
  · -- An unreadable term stops the parser in either spelling, so neither has a value to compare.
    intro hunread v
    constructor
    · intro hvalue
      have hread := readable_of_evaluateText hchainFits (isChain_chainRow op ls) hvalue
      exact hunread fun l hl => hread l (subset_intersperse _ ls hl)
    · intro hvalue
      have hread := readable_of_evaluateText hcallFits (isChain_callRow _ ls) hvalue
      exact hunread fun l hl => hread l (subset_callRow _ ls hl)

def signedZero : Grid :=
  ⟨[[.number (.double (.zero true)), .integer 7]]⟩

def zeroFactors : List Lexeme :=
  [.identifier "A1", .number "3", .identifier "B1"]

theorem evaluateText_chain_zeroFactors :
    (∀ l ∈ zeroFactors, signedZero.IsTerm l) ∧ (∀ l ∈ zeroFactors, l.Readable) ∧
      Spaced "A1*3 * B1".toList (chainRow .multiply zeroFactors) ∧
      Spaced "MULTIPLY(A1, 3,B1)".toList (callRow (.aggregate .multiply) zeroFactors) ∧
      (∃ v, signedZero.evaluateText 0 "A1*3 * B1" = .ok v ∧
        signedZero.evaluateText 0 "MULTIPLY(A1, 3,B1)" = .ok v) ∧
      signedZero.evaluateText 10 "A1*3 * B1" = .ok .nan := by
  have hzero : signedZero.IsTerm (.identifier "A1") :=
    .cell (r := ⟨false, ['A'], false, ['1']⟩)
      ⟨nofun, nofun, List.forall_mem_singleton.mpr rfl, List.forall_mem_singleton.mpr rfl⟩
      (by rintro a ⟨⟩; rfl)
  have hthree : signedZero.IsTerm (.number "3") := .number ⟨'3', [], rfl, rfl⟩
  have hseven : signedZero.IsTerm (.identifier "B1") :=
    .cell (r := ⟨false, ['B'], false, ['1']⟩)
      ⟨nofun, nofun, List.forall_mem_singleton.mpr rfl, List.forall_mem_singleton.mpr rfl⟩
      (by rintro a ⟨⟩; rfl)
  have hterms : ∀ l ∈ zeroFactors, signedZero.IsTerm l :=
    List.forall_mem_cons.mpr ⟨hzero, List.forall_mem_cons.mpr
      ⟨hthree, List.forall_mem_singleton.mpr hseven⟩⟩
  have hread : ∀ l ∈ zeroFactors, l.Readable :=
    readable_cons nofun (List.forall_mem_cons.mpr
      ⟨fun s hs => by cases hs; exact ⟨_, rfl⟩, readable_cons nofun (List.forall_mem_nil _)⟩)
  have hchain : Spaced "A1*3 * B1".toList (chainRow .multiply zeroFactors) :=
    .lexeme (l := .identifier "A1") (.lexeme (l := .operator (.arithmetic .multiply))
      (.lexeme (l := .number "3") (.space rfl (.lexeme (l := .operator (.arithmetic .multiply))
        (.space rfl (.single (.identifier "B1")))))))
  have hcall : Spaced "MULTIPLY(A1, 3,B1)".toList (callRow (.aggregate .multiply) zeroFactors) :=
    .lexeme (l := .identifier "MULTIPLY") (.lexeme (l := .leftParen)
      (.lexeme (l := .identifier "A1") (.lexeme (l := .comma) (.space rfl
        (.lexeme (l := .number "3") (.lexeme (l := .comma) (.lexeme (l := .identifier "B1")
          (.single .rightParen))))))))
  have hvalues := evaluateText_chain hterms (by decide) hchain hcall
  exact ⟨hterms, hread, hchain, hcall, ((hvalues 0).1 hread).1 (by decide),
    ((hvalues 10).1 hread).2 (by decide)⟩

end Grid

end Spreadsheet
