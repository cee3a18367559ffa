import Mathlib.Data.List.Chain
import Spreadsheet.Proofs.Formula.Lexing
import Spreadsheet.Proofs.Formula.Soundness

/-!
# Neighbours in a formula

No operand of a formula stands directly behind another, and a parenthesis opens directly behind an
operand only where the operand is the name of a function. The names of functions have no digits.
-/

namespace Spreadsheet

open Text

namespace Grammar

def Follows (l m : Lexeme) : Prop :=
  l.isOperand = true → m.isOperand = false ∧ (m = .leftParen → l.joins '(' = false)

theorem follows_of_isOperand {l : Lexeme} (h : l.isOperand = false) (m : Lexeme) : Follows l m := by
  intro hoperand
  rw [h] at hoperand
  cases hoperand

theorem follows_mark {m : Lexeme} (hoperand : m.isOperand = false) (hparen : m ≠ .leftParen)
    (l : Lexeme) : Follows l m :=
  fun _ => ⟨hoperand, fun h => absurd h hparen⟩

theorem any_isDecimal_of_function {name : String} {f : Function}
    (h : f.name.toList = capitals name.toList) : name.toList.any isDecimal = false := by
  have hnames : ∀ f ∈ Function.all, f.name.toList.any isDecimal = false := by decide +kernel
  rw [List.any_eq_false]
  intro c hmem hc
  -- A digit would still be there in capital letters.
  have hcapital := mem_capitals_of_isDecimal hmem hc
  rw [← h] at hcapital
  exact List.any_eq_false.mp (hnames f (Function.mem_all f)) c hcapital hc

theorem joins_paren_of_function {name : String} {f : Function}
    (h : f.name.toList = capitals name.toList) : (Lexeme.identifier name).joins '(' = false := by
  have hparen : Scanned.isNamePart '(' = false := by decide +kernel
  simp [Lexeme.joins, hparen, any_isDecimal_of_function h]

/-- Two rows with a mark between them, which may stand next to everything. -/
theorem isChain_join {ls ms : List Lexeme} {m : Lexeme} (hls : ls.IsChain Follows)
    (hoperand : m.isOperand = false) (hparen : m ≠ .leftParen) (hms : ms.IsChain Follows) :
    (ls ++ m :: ms).IsChain Follows := by
  rw [List.isChain_append]
  refine ⟨hls, ?_, ?_⟩
  · rw [List.isChain_cons]
    exact ⟨fun l _ => follows_of_isOperand hoperand l, hms⟩
  · intro l _ m' hm'
    cases hm'
    exact follows_mark hoperand hparen l

theorem isChain_cons_mark {ls : List Lexeme} {m : Lexeme} (hoperand : m.isOperand = false)
    (hls : ls.IsChain Follows) : (m :: ls).IsChain Follows := by
  rw [List.isChain_cons]
  exact ⟨fun l _ => follows_of_isOperand hoperand l, hls⟩

theorem isChain_group {ls : List Lexeme} (hls : ls.IsChain Follows) :
    (Lexeme.leftParen :: ls ++ [Lexeme.rightParen]).IsChain Follows :=
  isChain_join (isChain_cons_mark rfl hls) rfl nofun List.isChain_nil

theorem isChain_call {name : String} {f : Function} {ls : List Lexeme}
    (hname : f.name.toList = capitals name.toList) (hls : ls.IsChain Follows) :
    (Lexeme.identifier name :: .leftParen :: ls ++ [Lexeme.rightParen]).IsChain Follows := by
  rw [List.cons_append, List.cons_append, List.isChain_cons_cons]
  exact ⟨fun _ => ⟨rfl, fun _ => joins_paren_of_function hname⟩, isChain_group hls⟩

mutual

theorem Comparative.isChain {ls : List Lexeme} {v : Content} :
    Comparative ls v → ls.IsChain Follows
  | .single h => h.isChain
  | .pair op hls hms _ _ => isChain_join hls.isChain rfl nofun hms.isChain

theorem Additive.isChain {ls : List Lexeme} {v : Content} : Additive ls v → ls.IsChain Follows
  | .single h => h.isChain
  | .step op _ hls hms => isChain_join hls.isChain rfl nofun hms.isChain

theorem Multiplicative.isChain {ls : List Lexeme} {v : Content} :
    Multiplicative ls v → ls.IsChain Follows
  | .single h => h.isChain
  | .step op _ hls hms => isChain_join hls.isChain rfl nofun hms.isChain

theorem Unary.isChain {ls : List Lexeme} {v : Content} : Unary ls v → ls.IsChain Follows
  | .atom h => h.isChain
  | .negative h => isChain_cons_mark rfl h.isChain
  | .minus h _ => isChain_cons_mark rfl h.isChain

theorem Atom.isChain {ls : List Lexeme} {v : Content} : Atom ls v → ls.IsChain Follows
  | .number _ => List.isChain_singleton _
  | .string _ => List.isChain_singleton _
  | .boolean _ => List.isChain_singleton _
  | .name _ => List.isChain_singleton _
  | .group h => isChain_group h.isChain
  | .call hname hargs => isChain_call hname hargs.isChain

theorem Arguments.isChain {ls : List Lexeme} {args : List Content} :
    Arguments ls args → ls.IsChain Follows
  | .none => List.isChain_nil
  | .some h => h.isChain

theorem Items.isChain {ls : List Lexeme} {args : List Content} :
    Items ls args → ls.IsChain Follows
  | .last h => h.isChain
  | .more hls hms => isChain_join hls.isChain rfl nofun hms.isChain

end

theorem Whole.isChain {ls : List Lexeme} {tree : Content} : Whole ls tree → ls.IsChain Follows
  | .mk h _ => h.isChain

end Grammar

open Grammar

theorem Formula.isChain_of_ofTokens {ts : List Token} {tree : Content}
    (h : ofTokens ts = .ok tree) : (lexemes ts).IsChain Follows := by
  apply of_lexemes_withoutEquals (P := List.IsChain Follows) _ (ofTokens_sound h).isChain
  intro ls hls
  exact isChain_cons_mark rfl hls

end Spreadsheet
