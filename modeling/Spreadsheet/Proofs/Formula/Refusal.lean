import Mathlib.Algebra.Group.Int.Defs
import Spreadsheet.Proofs.Formula.Rows

/-!
# Formulas that take up too many frames

Minus signs and parentheses draw on one stack, so it does not suffice that there are few of each. A row
that starts with signs and parentheses for which there are no frames is refused, whatever comes behind
them. Five parentheses with 201 signs in front of each are too much together, though the stack has
frames for as many signs and for far more parentheses.
-/

namespace Spreadsheet

open Grammar

namespace Grammar

def opensOperand : Lexeme → Bool
  | .leftParen | .operator (.arithmetic .subtract) => true
  | _ => false

def deepest : (depth : Nat) → List Lexeme → Nat
  | depth, [] => depth
  | depth, .leftParen :: ls => deepest (depth + 1) ls
  | depth, .rightParen :: ls => max depth (deepest (depth - 1) ls)
  | depth, _ :: ls => deepest depth ls

def longestMinuses : (run : Nat) → List Lexeme → Nat
  | run, [] => run
  | run, .operator (.arithmetic .subtract) :: ls => longestMinuses (run + 1) ls
  | run, _ :: ls => max run (longestMinuses 0 ls)

end Grammar

namespace Formula

theorem operand_of_lt {left : Nat} (h : left < 3) (ts : List Token) :
    operand left ts = .error .nestedTooDeeply := by
  match left with
  | 0 | 1 | 2 => rfl

theorem expression_of_lt {left : Nat} (h : left < 5) (ts : List Token) :
    expression left ts = .error .nestedTooDeeply := by
  match left with
  | 0 | 1 | 2 | 3 | 4 => rfl

/-- Without three frames for the operand behind signs and parentheses, the first of them is refused. -/
theorem operand_refuses {ts : List Token} (hopening : ∀ l ∈ lexemes ts, opensOperand l = true)
    (us : List Token) (outer : List Nat) (base signs : Nat) {left : Nat}
    (hframes : base + signs + left <
      ((⟨outer, base, signs, false⟩ : Place).after (lexemes ts)).frames + 3) :
    operand left (ts ++ us) = .error .nestedTooDeeply := by
  -- Frames that a sign or a parenthesis takes go from those left to those in use.
  induction ts generalizing outer base signs left with
  | nil =>
    have hframes' : base + signs + left < base + signs + 3 := hframes
    exact operand_of_lt (by omega) us
  | cons t ts ih =>
    obtain ⟨hl, hls⟩ := List.forall_mem_cons.mp hopening
    by_cases hleft : left < 3
    · exact operand_of_lt hleft _
    obtain ⟨n, rfl⟩ : ∃ n, left = n + 3 := ⟨left - 3, by omega⟩
    obtain ⟨l, position⟩ := t
    have hcases : l = .leftParen ∨ l = .operator (.arithmetic .subtract) := by
      dsimp only at hl
      unfold opensOperand at hl
      split at hl
      · exact .inl rfl
      · exact .inr rfl
      · cases hl
    rcases hcases with rfl | rfl
    · have hinner : expression (n + 1) (ts ++ us) = .error .nestedTooDeeply := by
        by_cases hn : n + 1 < 5
        · exact expression_of_lt hn _
        obtain ⟨k, hk⟩ : ∃ k, n + 1 = k + 5 := ⟨n - 4, by omega⟩
        rw [hk]
        apply levels_eq_error
        apply ih hls (base :: outer) (base + signs + 7) 0
        have hframes' : base + signs + (n + 3) <
          ((⟨base :: outer, base + signs + 7, 0, false⟩ : Place).after (lexemes ts)).frames + 3 :=
          hframes
        omega
      show (expression (n + 1) (ts ++ us) >>= _) = _
      rw [hinner]
      rfl
    · show (operand (n + 2) (ts ++ us)).map _ = _
      rw [ih hls outer base (signs + 1)]
      · rfl
      · have hframes' : base + signs + (n + 3) <
          ((⟨outer, base, signs + 1, false⟩ : Place).after (lexemes ts)).frames + 3 := hframes
        omega

/-- A formula is refused if the signs and parentheses at its start leave less than eight frames to what
is behind them. -/
theorem ofTokens_refuses {ts : List Token} (hopening : ∀ l ∈ lexemes ts, opensOperand l = true)
    (us : List Token) (hframes : maxFrames < (Place.start.after (lexemes ts)).frames + 8) :
    ofTokens (ts ++ us) = .error .nestedTooDeeply := by
  have hread : expression maxFrames (ts ++ us) = .error .nestedTooDeeply := by
    show levels (operand (maxFrames - 5)) (ts ++ us) = _
    apply levels_eq_error
    apply operand_refuses hopening us [] 0 0
    have hmax : maxFrames = 1000 := rfl
    have hstart : Place.start = ⟨[], 0, 0, false⟩ := rfl
    rw [hstart] at hframes
    omega
  cases ts with
  | nil => exact absurd hframes (by decide)
  | cons t ts =>
    -- A row that opens operands only cannot start with an equals sign to drop.
    have hequal : withoutEquals (t :: ts ++ us) = t :: (ts ++ us) := by
      rw [List.cons_append]
      unfold withoutEquals
      split
      · rename_i heq
        cases heq
        cases hopening _ List.mem_cons_self
      · rfl
    unfold ofTokens
    rw [hequal]
    dsimp only
    rw [← List.cons_append, hread]
    rfl

/-! ## Towers of signs and parentheses -/

end Formula

namespace Grammar

variable (signs levels : Nat)

def towerOpening : List Lexeme :=
  (List.replicate levels
    (List.replicate signs (.operator (.arithmetic .subtract)) ++ [.leftParen])).flatten

def tower : List Lexeme :=
  towerOpening signs levels ++ .number "1" :: List.replicate levels .rightParen

theorem opensOperand_of_mem_towerOpening {l : Lexeme} (h : l ∈ towerOpening signs levels) :
    opensOperand l = true := by
  obtain ⟨ls, hls, hl⟩ := List.mem_flatten.mp h
  obtain rfl := List.eq_of_mem_replicate hls
  rcases List.mem_append.mp hl with hl | hl
  · rw [List.eq_of_mem_replicate hl]
    rfl
  · rw [List.mem_singleton.mp hl]
    rfl

theorem tower_succ : tower signs (levels + 1) =
    List.replicate signs (.operator (.arithmetic .subtract)) ++
      (.leftParen :: tower signs levels ++ [.rightParen]) := by
  unfold tower towerOpening
  rw [List.replicate_succ, List.flatten_cons, List.replicate_succ']
  simp

variable {signs levels}

theorem simple_of_mem_tower {l : Lexeme} (h : l ∈ tower signs levels) : l.Simple := by
  rcases List.mem_append.mp h with h | h
  · have hopening := opensOperand_of_mem_towerOpening signs levels h
    unfold opensOperand at hopening
    split at hopening
    · exact Lexeme.simple_leftParen
    · exact Lexeme.simple_arithmetic .subtract
    · cases hopening
  · rcases List.mem_cons.mp h with rfl | h
    · exact Lexeme.simple_digits (List.cons_ne_nil '1' []) (List.forall_mem_singleton.mpr rfl)
    · rw [List.eq_of_mem_replicate h]
      exact Lexeme.simple_rightParen

theorem repeat_negated_integer (signs : Nat) (n : Int) :
    Nat.repeat Formula.negated signs (.integer n) = .integer ((-1) ^ signs * n) := by
  -- The outermost sign is taken first, as in the power.
  induction signs with
  | zero =>
    rw [Int.pow_zero, Int.one_mul]
    rfl
  | succ signs ih =>
    show Formula.negated (Nat.repeat Formula.negated signs (.integer n)) = _
    rw [ih, Int.pow_succ', Int.mul_assoc, Int.neg_one_mul]
    rfl

theorem unary_minuses {ls : List Lexeme} {v : Content} (h : Unary ls v) (signs : Nat) :
    Unary (List.replicate signs (.operator (.arithmetic .subtract)) ++ ls)
      (Nat.repeat Formula.negated signs v) := by
  induction signs with
  | zero => exact h
  | succ signs ih => exact Formula.Unary.negated ih

theorem unary_tower (signs levels : Nat) :
    Unary (tower signs levels) (.integer ((-1) ^ (signs * levels))) := by
  -- Each level goes around the tower below it, and its signs go into the number.
  induction levels with
  | zero => exact .atom (.number (by rfl))
  | succ levels ih =>
    have hsigns := unary_minuses (.atom (.group (.single (.single (.single ih))))) signs
    rw [repeat_negated_integer, ← Int.pow_add, Nat.add_comm, ← Nat.mul_succ, ← tower_succ] at hsigns
    exact hsigns

end Grammar

theorem Spaced.of_texts (ls : List Lexeme) : Spaced (ls.flatMap fun l => l.text.toList) ls := by
  induction ls with
  | nil => exact .nil
  | cons l ls ih => exact .lexeme ih

namespace Formula

def towerText : String :=
  String.ofList ((tower 201 5).flatMap fun l => l.text.toList)

theorem spaced_towerText : Spaced towerText.toList (tower 201 5) := by
  unfold towerText
  rw [String.toList_ofList]
  exact .of_texts _

theorem ofTokens_tower {ts : List Token} (hts : lexemes ts = tower 201 5) :
    ofTokens ts = .error .nestedTooDeeply := by
  obtain ⟨us, ws, rfl, hus, -⟩ := lexemes_eq_append hts
  apply ofTokens_refuses
  · intro l hl
    exact opensOperand_of_mem_towerOpening 201 5 (hus ▸ hl)
  · rw [hus]
    decide +kernel

/-- No more than five parentheses are nested and no more than 201 signs stand in a row, and the grammar
derives a tree, but the frames do not suffice for both. -/
theorem parse_towerText :
    ∃ ts, Token.scan towerText = .ok ts ∧ deepest 0 (lexemes ts) = 5 ∧
      longestMinuses 0 (lexemes ts) = 201 ∧
      Whole (lexemes (withoutEquals ts)) (.literal (.integer (-1))) ∧
      parse towerText = .error .nestedTooDeeply := by
  have hvalue : (-1 : Int) ^ (201 * 5) = -1 := by decide +kernel
  have hunary := unary_tower 201 5
  rw [hvalue] at hunary
  have hwhole : Whole (tower 201 5) (.literal (.integer (-1))) :=
    .mk (.single (.single (.single hunary))) (.value rfl nofun)
  have hsimple : ∀ l ∈ tower 201 5, l.Simple := fun _ => simple_of_mem_tower
  obtain ⟨ts, hscan, hts⟩ :=
    Token.scan_of_cut (spaced_towerText.cut_of_simple hsimple hwhole.isChain)
  refine ⟨ts, hscan, ?_, ?_, ?_, ?_⟩
  · rw [hts]
    decide +kernel
  · rw [hts]
    decide +kernel
  · -- There is no equals sign in the text at all, so none is dropped in front.
    rw [withoutEquals_of_forall fun l hl => (hsimple l (hts ▸ hl)).ne_comparison, hts]
    exact hwhole
  · rw [parse_eq_ofTokens hscan]
    exact ofTokens_tower hts

end Formula

end Spreadsheet
