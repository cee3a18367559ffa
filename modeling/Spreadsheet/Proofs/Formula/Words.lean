import Spreadsheet.Proofs.Formula.Soundness

/-!
# The texts in a tree

Every text among the arguments of the tree of a formula is the name, the truth value or the string of
one of its lexemes.
-/

namespace Spreadsheet

open Text

namespace Content

mutual

def texts : Content → List String
  | .text s => [s]
  | .formula _ args => textsOfAll args
  | _ => []

def textsOfAll : List Content → List String
  | [] => []
  | arg :: args => texts arg ++ textsOfAll args

end

@[simp] theorem texts_text (s : String) : texts (.text s) = [s] := rfl

@[simp] theorem texts_number (n : Number) : texts (.number n) = [] := rfl

@[simp] theorem texts_formula (name : Json) (args : List Content) :
    texts (.formula name args) = textsOfAll args := rfl

@[simp] theorem texts_call (f : Function) (args : List Content) :
    texts (.call f args) = textsOfAll args := rfl

@[simp] theorem textsOfAll_nil : textsOfAll [] = [] := rfl

@[simp] theorem textsOfAll_cons (arg : Content) (args : List Content) :
    textsOfAll (arg :: args) = texts arg ++ textsOfAll args := rfl

theorem texts_subset_textsOfAll {args : List Content} {arg : Content} (h : arg ∈ args) :
    arg.texts ⊆ textsOfAll args := by
  induction args with
  | nil => cases h
  | cons head args ih =>
    rw [textsOfAll_cons]
    rcases List.mem_cons.mp h with rfl | h
    · exact List.subset_append_left _ _
    · exact List.subset_append_of_subset_right _ (ih h)

end Content

def Lexeme.word? : Lexeme → Option String
  | .identifier name => some name
  | .boolean value => some (booleanWord value)
  | .string spelling => some spelling
  | _ => none

def words (ls : List Lexeme) : List String :=
  ls.filterMap Lexeme.word?

theorem mem_words {ls : List Lexeme} {s : String} :
    s ∈ words ls ↔ ∃ l ∈ ls, l.word? = some s :=
  List.mem_filterMap

theorem words_cons {l : Lexeme} (h : l.word? = none) (ls : List Lexeme) :
    words (l :: ls) = words ls :=
  List.filterMap_cons_none h

theorem words_append (ls ms : List Lexeme) : words (ls ++ ms) = words ls ++ words ms :=
  List.filterMap_append

theorem words_join {l : Lexeme} (h : l.word? = none) (ls ms : List Lexeme) :
    words (ls ++ l :: ms) = words ls ++ words ms := by
  rw [words_append, words_cons h]

theorem words_group (ls : List Lexeme) :
    words (.leftParen :: ls ++ [.rightParen]) = words ls := by
  rw [words_join rfl, words_cons rfl]
  exact List.append_nil _

namespace Grammar

/-- An operand has no text that its value does not have. -/
theorem Operand.texts_subset {v w : Content} (h : Operand v w) : w.texts ⊆ v.texts := by
  cases h with
  | tree name args => exact List.Subset.refl _
  | truth value => exact List.nil_subset _
  | reference _ => exact List.Subset.refl _
  | quoted _ => exact List.Subset.refl _
  | value _ _ =>
    show v.texts ++ [] ⊆ v.texts
    rw [List.append_nil]
    exact List.Subset.refl _

theorem texts_pair_subset {f : Function} {a b : Content} {ls ms : List Lexeme} {l : Lexeme}
    (hl : l.word? = none) (ha : a.texts ⊆ words ls) (hb : b.texts ⊆ words ms) :
    (Content.call f [a, b]).texts ⊆ words (ls ++ l :: ms) := by
  show a.texts ++ (b.texts ++ []) ⊆ _
  rw [List.append_nil, words_join hl]
  exact List.append_subset.mpr
    ⟨List.subset_append_of_subset_left _ ha, List.subset_append_of_subset_right _ hb⟩

mutual

theorem Comparative.texts_subset {ls : List Lexeme} {v : Content} :
    Comparative ls v → v.texts ⊆ words ls
  | .single h => h.texts_subset
  | .pair _ hls hms ha hb =>
    texts_pair_subset rfl (List.Subset.trans ha.texts_subset hls.texts_subset)
      (List.Subset.trans hb.texts_subset hms.texts_subset)

theorem Additive.texts_subset {ls : List Lexeme} {v : Content} :
    Additive ls v → v.texts ⊆ words ls
  | .single h => h.texts_subset
  | .step _ _ hls hms => texts_pair_subset rfl hls.texts_subset hms.texts_subset

theorem Multiplicative.texts_subset {ls : List Lexeme} {v : Content} :
    Multiplicative ls v → v.texts ⊆ words ls
  | .single h => h.texts_subset
  | .step _ _ hls hms => texts_pair_subset rfl hls.texts_subset hms.texts_subset

theorem Unary.texts_subset {ls : List Lexeme} {v : Content} : Unary ls v → v.texts ⊆ words ls
  | .atom h => h.texts_subset
  | .negative _ => List.nil_subset _
  | .minus h _ => by
    have hone : (Content.integer (-1)).texts ⊆ words [] := List.nil_subset _
    exact texts_pair_subset rfl hone h.texts_subset

theorem Atom.texts_subset {ls : List Lexeme} {v : Content} : Atom ls v → v.texts ⊆ words ls
  | .number _ => List.nil_subset _
  | .string _ => List.Subset.refl _
  | .boolean _ => List.Subset.refl _
  | .name _ => List.Subset.refl _
  | .group h => by
    rw [words_group]
    exact h.texts_subset
  | .call _ hargs => by
    -- The name of the function is a word that the tree does not have as a text.
    rw [List.cons_append]
    apply List.subset_cons_of_subset _
    show _ ⊆ words _
    rw [words_group]
    exact hargs.texts_subset

theorem Arguments.texts_subset {ls : List Lexeme} {args : List Content} :
    Arguments ls args → Content.textsOfAll args ⊆ words ls
  | .none => List.nil_subset _
  | .some h => h.texts_subset

theorem Items.texts_subset {ls : List Lexeme} {args : List Content} :
    Items ls args → Content.textsOfAll args ⊆ words ls
  | .last h => by
    rw [Content.textsOfAll_cons, Content.textsOfAll_nil, List.append_nil]
    exact h.texts_subset
  | .more hls hms => by
    rw [Content.textsOfAll_cons, words_join rfl]
    exact List.append_subset.mpr
      ⟨List.subset_append_of_subset_left _ hls.texts_subset,
        List.subset_append_of_subset_right _ hms.texts_subset⟩

end

theorem Whole.texts_subset {ls : List Lexeme} {tree : Content} :
    Whole ls tree → tree.texts ⊆ words ls
  | .mk h hoperand => List.Subset.trans hoperand.texts_subset h.texts_subset

theorem Whole.isFormula {ls : List Lexeme} {tree : Content} :
    Whole ls tree → tree.isFormula = true
  | .mk _ hoperand => by
    cases hoperand with
    | tree name args => rfl
    | truth value => rfl
    | reference _ => rfl
    | quoted _ => rfl
    | value _ _ => rfl

end Grammar

namespace Formula

open Grammar

/-- The texts in the tree of a formula are words of its tokens. -/
theorem texts_subset_of_ofTokens {ts : List Token} {tree : Content} (h : ofTokens ts = .ok tree) :
    tree.texts ⊆ words (lexemes ts) := by
  apply of_lexemes_withoutEquals (P := fun ls => tree.texts ⊆ words ls) _
    (ofTokens_sound h).texts_subset
  intro ls hls
  rw [words_cons rfl]
  exact hls

theorem isFormula_of_ofTokens {ts : List Token} {tree : Content} (h : ofTokens ts = .ok tree) :
    tree.isFormula = true :=
  (ofTokens_sound h).isFormula

theorem isFormula_of_parse {text : String} {tree : Content} (h : parse text = .ok tree) :
    tree.isFormula = true := by
  unfold parse at h
  split at h
  · exact isFormula_of_ofTokens h
  · cases h

end Formula

end Spreadsheet
