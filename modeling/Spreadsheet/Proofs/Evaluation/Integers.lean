import Spreadsheet.Proofs.Evaluation.Arguments
import Spreadsheet.Proofs.Formula.Refusal
import Spreadsheet.Proofs.Number.Literals

/-!
# Integer arithmetic

A formula of whole numbers, references to whole numbers, minus signs, `+`, `-`, `*` and parentheses
comes to the whole number that it means, with the usual precedence and from the left. No step rounds.
Only a tree that is nested too deeply for the depth comes to `nan`.
-/

namespace Spreadsheet

open Text Grammar

/-! ## What an expression means -/

namespace Grid

mutual

/-- The whole number that a row of lexemes means over a grid: products joined by `+` and `-`. -/
inductive Sum (g : Grid) : List Lexeme → Int → Prop
  | single {ls : List Lexeme} {n : Int} : Product g ls n → Sum g ls n
  | plus {ls ms : List Lexeme} {m n : Int} :
      Sum g ls m → Product g ms n → Sum g (ls ++ .operator (.arithmetic .add) :: ms) (m + n)
  | minus {ls ms : List Lexeme} {m n : Int} :
      Sum g ls m → Product g ms n → Sum g (ls ++ .operator (.arithmetic .subtract) :: ms) (m - n)

inductive Product (g : Grid) : List Lexeme → Int → Prop
  | single {ls : List Lexeme} {n : Int} : Factor g ls n → Product g ls n
  | times {ls ms : List Lexeme} {m n : Int} :
      Product g ls m → Factor g ms n →
      Product g (ls ++ .operator (.arithmetic .multiply) :: ms) (m * n)

inductive Factor (g : Grid) : List Lexeme → Int → Prop
  | digits {digits : List Char} :
      digits ≠ [] → (∀ c ∈ digits, isDecimal c = true) → digits.length ≤ maxDigits →
      Factor g [.number (String.ofList digits)] (decimalValue digits)
  | cell {r : Reference} {a : Address} {n : Int} :
      r.WellFormed → r.address? = some a → g.content a = .integer n →
      Factor g [.identifier (String.ofList r.spelling)] n
  | negative {ls : List Lexeme} {n : Int} :
      Factor g ls n → Factor g (.operator (.arithmetic .subtract) :: ls) (-n)
  | group {ls : List Lexeme} {n : Int} :
      Sum g ls n → Factor g (.leftParen :: ls ++ [.rightParen]) n

end

end Grid

namespace Content

mutual

def nesting : Content → Nat
  | .formula _ args => nestingAll args + 1
  | _ => 0

def nestingAll : List Content → Nat
  | [] => 0
  | arg :: args => max (nesting arg) (nestingAll args)

end

theorem nesting_of_isFormula {v : Content} (h : v.isFormula = false) : v.nesting = 0 := by
  cases v with
  | formula name args => cases h
  | _ => rfl

theorem nesting_pair (f : Function) (a b : Content) :
    (Content.call f [a, b]).nesting = max a.nesting b.nesting + 1 := by
  simp [call, nesting, nestingAll]

theorem nesting_literal (v : Content) : (Content.literal v).nesting = v.nesting + 1 := by
  simp [literal, call, nesting, nestingAll]

end Content

namespace Grid

variable {g : Grid}

/-! ## Trees of whole numbers -/

inductive Denotes (g : Grid) : Content → Int → Prop
  | integer (n : Int) : Denotes g (.integer n) n
  | cell {r : Reference} {a : Address} {n : Int} :
      r.WellFormed → r.address? = some a → g.content a = .integer n →
      Denotes g (.text (String.ofList r.spelling)) n
  | literal {v : Content} {n : Int} :
      v.isFormula = false → Denotes g v n → Denotes g (.literal v) n
  | sum {v w : Content} {m n : Int} :
      Denotes g v m → Denotes g w n → Denotes g (.call (.aggregate .sum) [v, w]) (m + n)
  | difference {v w : Content} {m n : Int} :
      Denotes g v m → Denotes g w n → Denotes g (.call (.aggregate .subtract) [v, w]) (m - n)
  | product {v w : Content} {m n : Int} :
      Denotes g v m → Denotes g w n → Denotes g (.call (.aggregate .multiply) [v, w]) (m * n)

def boundedValue (levels : Nat) (tree : Content) (n : Int) : Content :=
  if tree.nesting ≤ levels then .integer n else .nan

theorem boundedValue_of_isFormula {v : Content} (h : v.isFormula = false) (levels : Nat) (n : Int) :
    boundedValue levels v n = .integer n := by
  unfold boundedValue
  rw [Content.nesting_of_isFormula h, if_pos (Nat.zero_le levels)]

theorem boundedValue_zero (f : Function) (args : List Content) (n : Int) :
    boundedValue 0 (.call f args) n = .nan := by
  show (if Content.nestingAll args + 1 ≤ 0 then _ else _) = _
  rw [if_neg (Nat.not_succ_le_zero _)]

/-- An aggregate of two whole numbers that comes to a whole number comes to it over trees as well. -/
theorem resolveWith_pair {f : Aggregate} {v w : Content} {m n k : Int} {levels : Nat}
    (hv : g.resolveWith (g.evaluateWithin levels) v = boundedValue levels v m)
    (hw : g.resolveWith (g.evaluateWithin levels) w = boundedValue levels w n)
    (hcompute : f.compute [.integer m, .integer n] = some (.integer k)) :
    g.resolveWith (g.evaluateWithin (levels + 1)) (.call (.aggregate f) [v, w]) =
      boundedValue (levels + 1) (.call (.aggregate f) [v, w]) k := by
  show g.evaluateWithin (levels + 1) (.text f.name) [v, w] = _
  rw [evaluateWithin_aggregate, List.map_cons, List.map_cons, List.map_nil, hv, hw]
  by_cases hle : max v.nesting w.nesting ≤ levels
  · have hvle : v.nesting ≤ levels := by omega
    have hwle : w.nesting ≤ levels := by omega
    unfold boundedValue
    rw [Content.nesting_pair, if_pos hvle, if_pos hwle, if_pos (Nat.succ_le_succ hle), hcompute]
    rfl
  · have hnan : Content.nan ∈ [boundedValue levels v m, boundedValue levels w n] := by
      unfold boundedValue
      by_cases hvle : v.nesting ≤ levels
      · have hwle : ¬w.nesting ≤ levels := by omega
        rw [if_neg hwle]
        exact List.mem_pair.mpr (.inr rfl)
      · rw [if_neg hvle]
        exact List.mem_pair.mpr (.inl rfl)
    rw [Aggregate.outcome_eq_nan hnan, boundedValue, Content.nesting_pair, if_neg (by omega)]

theorem resolveWith_literal {v : Content} {n : Int} {levels : Nat} (hformula : v.isFormula = false)
    (hv : g.resolveWith (g.evaluateWithin levels) v = boundedValue levels v n) :
    g.resolveWith (g.evaluateWithin (levels + 1)) (.literal v) =
      boundedValue (levels + 1) (.literal v) n := by
  have hnesting : (Content.literal v).nesting ≤ levels + 1 := by
    rw [Content.nesting_literal, Content.nesting_of_isFormula hformula]
    omega
  have happly : Function.literal.apply (g.resolveWith (g.evaluateWithin levels)) [v] =
      .ok (.integer n) := by
    simp only [Function.apply, hformula, hv, boundedValue_of_isFormula hformula, Bool.false_eq_true,
      if_false]
  show g.evaluateWithin (levels + 1) (.text Function.literal.name) [v] = _
  rw [evaluateWithin_succ happly, boundedValue, if_pos hnesting]

theorem resolveWith_cell {r : Reference} {a : Address} (hform : r.WellFormed)
    (ha : r.address? = some a) (eval : Evaluator) :
    g.resolveWith eval (.text (String.ofList r.spelling)) = (g.content a).valueWith eval := by
  have haddress := (Reference.address?_eq_ofSpelling? hform).symm.trans ha
  show g.tokenWith eval (String.ofList r.spelling) = _
  unfold tokenWith
  rw [String.toList_ofList]
  simp only [isReference_spelling hform, if_true, haddress]

/-- The value of a tree that means a whole number is this number, or `nan` if the tree is nested too
deeply. -/
theorem Denotes.resolveWith_eq {tree : Content} {n : Int} (h : Denotes g tree n) (levels : Nat) :
    g.resolveWith (g.evaluateWithin levels) tree = boundedValue levels tree n := by
  -- On the tree, for all numbers of levels, since its arguments have one level less.
  induction h generalizing levels with
  | integer n => exact (boundedValue_of_isFormula rfl levels n).symm
  | @cell r a n hform ha hcell =>
    rw [resolveWith_cell hform ha, hcell, boundedValue_of_isFormula rfl levels n]
    rfl
  | @literal v n hv _ ih =>
    cases levels with
    | zero => exact (boundedValue_zero .literal [v] n).symm
    | succ levels => exact resolveWith_literal hv (ih levels)
  | @sum v w m n _ _ ihv ihw =>
    cases levels with
    | zero => exact (boundedValue_zero _ _ _).symm
    | succ levels =>
      refine resolveWith_pair (ihv levels) (ihw levels) ?_
      show some (Number.integer (0 + m + n)) = _
      rw [Int.zero_add]
  | difference _ _ ihv ihw =>
    cases levels with
    | zero => exact (boundedValue_zero _ _ _).symm
    | succ levels => exact resolveWith_pair (ihv levels) (ihw levels) rfl
  | @product v w m n _ _ ihv ihw =>
    cases levels with
    | zero => exact (boundedValue_zero _ _ _).symm
    | succ levels =>
      refine resolveWith_pair (ihv levels) (ihw levels) ?_
      show some (Number.integer (1 * m * n)) = _
      rw [Int.one_mul]

/-! ## From expressions to trees -/

mutual

theorem Sum.exists_tree {ls : List Lexeme} {n : Int} :
    Sum g ls n → ∃ v, Additive ls v ∧ Denotes g v n
  | .single h => by
    obtain ⟨v, hv, hn⟩ := h.exists_tree
    exact ⟨v, .single hv, hn⟩
  | .plus hls hms => by
    obtain ⟨v, hv, hm⟩ := hls.exists_tree
    obtain ⟨w, hw, hn⟩ := hms.exists_tree
    exact ⟨_, .step .add rfl hv hw, .sum hm hn⟩
  | .minus hls hms => by
    obtain ⟨v, hv, hm⟩ := hls.exists_tree
    obtain ⟨w, hw, hn⟩ := hms.exists_tree
    exact ⟨_, .step .subtract rfl hv hw, .difference hm hn⟩

theorem Product.exists_tree {ls : List Lexeme} {n : Int} :
    Product g ls n → ∃ v, Multiplicative ls v ∧ Denotes g v n
  | .single h => by
    obtain ⟨v, hv, hn⟩ := h.exists_tree
    exact ⟨v, .single hv, hn⟩
  | .times hls hms => by
    obtain ⟨v, hv, hm⟩ := hls.exists_tree
    obtain ⟨w, hw, hn⟩ := hms.exists_tree
    exact ⟨_, .step .multiply rfl hv hw, .product hm hn⟩

theorem Factor.exists_tree {ls : List Lexeme} {n : Int} :
    Factor g ls n → ∃ v, Unary ls v ∧ Denotes g v n
  | .digits hne hdigits hlength =>
    ⟨_, .atom (.number (Number.read_of_isDecimal hne hdigits hlength)), .integer _⟩
  | .cell hform ha hcell => ⟨_, .atom (.name _), .cell hform ha hcell⟩
  | .negative (n := n) h => by
    obtain ⟨v, hv, hn⟩ := h.exists_tree
    cases hnumber : v.isNumber with
    | true =>
      -- The sign goes into the number.
      cases hn with
      | integer n => exact ⟨_, .negative hv, .integer (-n)⟩
      | _ => cases hnumber
    | false =>
      have hproduct := Denotes.product (.integer (-1)) hn
      rw [Int.neg_one_mul] at hproduct
      exact ⟨_, .minus hv hnumber, hproduct⟩
  | .group h => by
    obtain ⟨v, hv, hn⟩ := h.exists_tree
    exact ⟨v, .atom (.group (.single hv)), hn⟩

end

/-- The tree of a whole expression means the same. -/
theorem Denotes.exists_operand {v : Content} {n : Int} (h : Denotes g v n) :
    ∃ tree, Operand v tree ∧ tree.isFormula = true ∧ Denotes g tree n := by
  cases h with
  | integer n => exact ⟨_, .value rfl nofun, rfl, .literal rfl (.integer n)⟩
  | cell hform ha hcell =>
    refine ⟨_, .reference ?_, rfl, .literal rfl (.cell hform ha hcell)⟩
    rw [String.toList_ofList]
    exact isReference_spelling hform
  | literal hv hn => exact ⟨_, .tree _ _, rfl, .literal hv hn⟩
  | sum hm hn => exact ⟨_, .tree _ _, rfl, .sum hm hn⟩
  | difference hm hn => exact ⟨_, .tree _ _, rfl, .difference hm hn⟩
  | product hm hn => exact ⟨_, .tree _ _, rfl, .product hm hn⟩

/-! ## Reading expressions -/

mutual

theorem Sum.simple {ls : List Lexeme} {n : Int} : Sum g ls n → ∀ l ∈ ls, l.Simple
  | .single h => h.simple
  | .plus hls hms => List.forall_mem_append.mpr
      ⟨hls.simple, List.forall_mem_cons.mpr ⟨Lexeme.simple_arithmetic .add, hms.simple⟩⟩
  | .minus hls hms => List.forall_mem_append.mpr
      ⟨hls.simple, List.forall_mem_cons.mpr ⟨Lexeme.simple_arithmetic .subtract, hms.simple⟩⟩

theorem Product.simple {ls : List Lexeme} {n : Int} : Product g ls n → ∀ l ∈ ls, l.Simple
  | .single h => h.simple
  | .times hls hms => List.forall_mem_append.mpr
      ⟨hls.simple, List.forall_mem_cons.mpr ⟨Lexeme.simple_arithmetic .multiply, hms.simple⟩⟩

theorem Factor.simple {ls : List Lexeme} {n : Int} : Factor g ls n → ∀ l ∈ ls, l.Simple
  | .digits hne hdigits _ => List.forall_mem_singleton.mpr (Lexeme.simple_digits hne hdigits)
  | .cell hform _ _ => List.forall_mem_singleton.mpr (Lexeme.simple_reference hform)
  | .negative h => List.forall_mem_cons.mpr ⟨Lexeme.simple_arithmetic .subtract, h.simple⟩
  | .group h => List.forall_mem_append.mpr
      ⟨List.forall_mem_cons.mpr ⟨Lexeme.simple_leftParen, h.simple⟩,
        List.forall_mem_singleton.mpr Lexeme.simple_rightParen⟩

end

theorem evaluate_of_denotes {tree : Content} {n : Int} (h : Denotes g tree n)
    (hformula : tree.isFormula = true) (depth : Int) :
    g.evaluate depth tree =
      if depth + tree.nesting ≤ maxDepth + 1 then .integer n else .nan := by
  have hpos : 0 < tree.nesting := by
    cases tree with
    | formula name args => exact Nat.succ_pos _
    | _ => cases hformula
  have hlevels : tree.nesting ≤ levelsAt depth ↔ depth + tree.nesting ≤ maxDepth + 1 := by
    unfold levelsAt
    omega
  have hvalue := h.resolveWith_eq (levelsAt depth)
  rw [resolveWith_of_isFormula hformula] at hvalue
  show tree.valueWith _ = _
  rw [hvalue, boundedValue]
  by_cases hle : tree.nesting ≤ levelsAt depth
  · rw [if_pos hle, if_pos (hlevels.mp hle)]
  · rw [if_neg hle, if_neg fun h => hle (hlevels.mpr h)]

/-- The text of an expression is a formula if there are frames enough for its parentheses and minus signs
together. Evaluating it gives the whole number that the expression means, or `nan` if its tree is nested
too deeply for the depth. -/
theorem evaluateText_of_sum {text : String} {ls : List Lexeme} {n : Int}
    (htext : Spaced text.toList ls) (hlimits : WithinLimits ls) (hsum : Sum g ls n) :
    ∃ tree, Formula.parse text = .ok tree ∧ ∀ depth, g.evaluateText depth text =
      .ok (if depth + tree.nesting ≤ maxDepth + 1 then .integer n else .nan) := by
  obtain ⟨v, hv, hn⟩ := hsum.exists_tree
  obtain ⟨tree, hoperand, hformula, htree⟩ := hn.exists_operand
  have hwhole : Whole ls tree := .mk (.single hv) hoperand
  obtain ⟨ts, hscan, rfl⟩ := Token.scan_of_cut (htext.cut_of_simple hsum.simple hwhole.isChain)
  have hparse : Formula.parse text = .ok tree := by
    rw [Formula.parse_eq_ofTokens hscan]
    apply Formula.ofTokens_complete hlimits
    rw [withoutEquals_of_forall fun l hl => (hsum.simple l hl).ne_comparison]
    exact hwhole
  refine ⟨tree, hparse, fun depth => ?_⟩
  unfold evaluateText
  rw [hparse]
  exact congrArg Except.ok (evaluate_of_denotes htree hformula depth)

def counted : Grid :=
  ⟨[[.integer 7, .integer (tenPow 400)]]⟩

def signedProduct : List Lexeme :=
  [.operator (.arithmetic .subtract), .leftParen, .identifier "$A$1",
    .operator (.arithmetic .subtract), .number "12", .rightParen, .operator (.arithmetic .multiply),
    .identifier "B1"]

theorem evaluateText_signedProduct :
    Spaced "- ($A$1 - 12)\t*B1".toList signedProduct ∧ WithinLimits signedProduct ∧
      Sum counted signedProduct (-(7 - 12) * tenPow 400) ∧
      ∃ tree, Formula.parse "- ($A$1 - 12)\t*B1" = .ok tree ∧
        ∀ depth, counted.evaluateText depth "- ($A$1 - 12)\t*B1" =
          .ok (if depth + tree.nesting ≤ maxDepth + 1 then .integer (-(7 - 12) * tenPow 400)
            else .nan) := by
  have htext : Spaced "- ($A$1 - 12)\t*B1".toList signedProduct := by
    have hproduct : Spaced "\t*B1".toList
        [.operator (.arithmetic .multiply), .identifier "B1"] :=
      .space rfl (.lexeme (l := .operator (.arithmetic .multiply))
        (.lexeme (l := .identifier "B1") .nil))
    have hdifference : Spaced " - 12)\t*B1".toList (signedProduct.drop 3) :=
      .space rfl (.lexeme (l := .operator (.arithmetic .subtract))
        (.space rfl (.lexeme (l := .number "12") (.lexeme (l := .rightParen) hproduct))))
    exact .lexeme (l := .operator (.arithmetic .subtract))
      (.space rfl (.lexeme (l := .leftParen) (.lexeme (l := .identifier "$A$1") hdifference)))
  have hlimits : WithinLimits signedProduct := by decide
  have hseven : Factor counted [.identifier "$A$1"] 7 :=
    .cell (r := ⟨true, ['A'], true, ['1']⟩) (a := ⟨1, ⟨0, by decide⟩, true, true⟩)
      ⟨nofun, nofun, List.forall_mem_singleton.mpr rfl, List.forall_mem_singleton.mpr rfl⟩ rfl rfl
  have htwelve : Factor counted [.number "12"] 12 :=
    Factor.digits (g := counted) (List.cons_ne_nil '1' ['2'])
      (List.forall_mem_cons.mpr ⟨rfl, List.forall_mem_singleton.mpr rfl⟩) (by decide)
  -- The second factor lies beyond the doubles: the product has to stay an exact integer.
  have hlarge : Factor counted [.identifier "B1"] (tenPow 400) :=
    .cell (r := ⟨false, ['B'], false, ['1']⟩) (a := ⟨1, ⟨1, by decide⟩, false, false⟩)
      ⟨nofun, nofun, List.forall_mem_singleton.mpr rfl, List.forall_mem_singleton.mpr rfl⟩ rfl rfl
  have hdifference : Sum counted _ (7 - 12) := .minus (.single (.single hseven)) (.single htwelve)
  have hsum : Sum counted signedProduct (-(7 - 12) * tenPow 400) :=
    .single (.times (.single (.negative (.group hdifference))) hlarge)
  exact ⟨htext, hlimits, hsum, evaluateText_of_sum htext hlimits hsum⟩

theorem Factor.signed {ls : List Lexeme} {n : Int} (h : Factor g ls n) (signs : Nat) :
    Factor g (List.replicate signs (.operator (.arithmetic .subtract)) ++ ls) ((-1) ^ signs * n) := by
  induction signs with
  | zero =>
    rw [Int.pow_zero, Int.one_mul]
    exact h
  | succ signs ih =>
    rw [Int.pow_succ', Int.mul_assoc, Int.neg_one_mul]
    exact .negative ih

theorem Factor.tower (signs levels : Nat) :
    Factor g (tower signs levels) ((-1) ^ (signs * levels)) := by
  -- Each level goes around the tower below it.
  induction levels with
  | zero =>
    exact .digits (List.cons_ne_nil '1' []) (List.forall_mem_singleton.mpr rfl) (by decide)
  | succ levels ih =>
    have hsigns := (Factor.group (.single (.single ih))).signed signs
    rw [← Int.pow_add, Nat.add_comm, ← Nat.mul_succ, ← tower_succ] at hsigns
    exact hsigns

/-- Five parentheses with 201 signs in front of each mean -1, but they are no formula. -/
theorem evaluateText_towerText :
    Spaced Formula.towerText.toList (tower 201 5) ∧ deepest 0 (tower 201 5) = 5 ∧
      longestMinuses 0 (tower 201 5) = 201 ∧ Sum (⟨[]⟩ : Grid) (tower 201 5) (-1) ∧
      ∀ depth, (⟨[]⟩ : Grid).evaluateText depth Formula.towerText = .error .nestedTooDeeply := by
  have hvalue : (-1 : Int) ^ (201 * 5) = -1 := by decide +kernel
  have hfactor : Factor ⟨[]⟩ (tower 201 5) _ := .tower 201 5
  rw [hvalue] at hfactor
  refine ⟨Formula.spaced_towerText, by decide +kernel, by decide +kernel, .single (.single hfactor),
    fun depth => ?_⟩
  have hcut := Formula.spaced_towerText.cut_of_simple (fun _ => simple_of_mem_tower)
    (unary_tower 201 5).isChain
  obtain ⟨ts, hscan, hts⟩ := Token.scan_of_cut hcut
  unfold evaluateText
  rw [Formula.parse_eq_ofTokens hscan, Formula.ofTokens_tower hts]
  rfl

end Grid

end Spreadsheet
