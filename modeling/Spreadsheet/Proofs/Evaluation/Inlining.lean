import Spreadsheet.Proofs.Evaluation.Renaming
import Spreadsheet.Proofs.Reference.Spelling

/-!
# References and what they stand for

A reference among the arguments of a tree can be replaced by what is in its cell. The tree keeps its
value at every depth: the formula of a cell lies as deep as the reference to it, and a text stands in
quotes, so that it is not read as a token again. References under a literal are left out, since a
literal does not work out a tree.
-/

namespace Spreadsheet

open Text

namespace Content

def asArgument : Content → Content
  | .text s => .text (String.ofList (quote '"' s.toList))
  | c => c

end Content

namespace Grid

/-- A text in quotes stands for itself, whatever token it may look like. -/
theorem tokenWith_quote (g : Grid) (eval : Evaluator) {q : Char} (hq : isMark q = true)
    (cs : List Char) :
    g.tokenWith eval (String.ofList (quote q cs)) = .text (String.ofList cs) := by
  have hreference : isReference (quote q cs) = false := isReference_of_isMark hq
  have hnumeral : isNumeral (quote q cs) = false := isNumeral_of_isMark hq
  have hunquoted : unquoted? (String.ofList (quote q cs)).toList = some cs := by
    rw [String.toList_ofList]
    exact unquoted?_quote hq cs
  have hword := ofBooleanWord?_of_unquoted? hunquoted
  unfold tokenWith
  dsimp only
  rw [hword, hunquoted, String.toList_ofList, hreference, hnumeral]
  rfl

/-- What stands for the content of a cell comes to what the cell comes to. -/
theorem resolveWith_asArgument (g : Grid) (eval : Evaluator) (c : Content) :
    g.resolveWith eval c.asArgument = c.valueWith eval := by
  cases c with
  | text s =>
    show g.tokenWith eval (String.ofList (quote '"' s.toList)) = .text s
    rw [tokenWith_quote g eval rfl, String.ofList_toList]
  | _ => rfl

/-- Whether one tree becomes the other when one reference in it is replaced by what is in its cell.
The reference may stand anywhere but right under a literal. -/
inductive Inlines (g : Grid) : Content → Content → Prop
  | here {name : Json} {s : String} (before after : List Content) :
      name ≠ .text Function.literal.name → isReference s.toList = true →
      Inlines g (.formula name (before ++ .text s :: after))
        (.formula name (before ++ (g.referent s).asArgument :: after))
  | inside {name : Json} {tree tree' : Content} (before after : List Content) :
      Inlines g tree tree' →
      Inlines g (.formula name (before ++ tree :: after))
        (.formula name (before ++ tree' :: after))

namespace Inlines

variable {g : Grid} {tree tree' : Content}

theorem isFormula (h : Inlines g tree tree') : tree.isFormula = true ∧ tree'.isFormula = true := by
  cases h with
  | here => exact ⟨rfl, rfl⟩
  | inside => exact ⟨rfl, rfl⟩

/-- One argument takes the place of another that comes to the same. -/
theorem evaluateWithin_replace {levels : Nat} {name : Json} {before after : List Content}
    {a b : Content}
    (hvalue : g.resolveWith (g.evaluateWithin levels) b = g.resolveWith (g.evaluateWithin levels) a)
    (hformula : name = .text Function.literal.name → b.isFormula = a.isFormula) :
    g.evaluateWithin (levels + 1) name (before ++ b :: after) =
      g.evaluateWithin (levels + 1) name (before ++ a :: after) := by
  unfold evaluateWithin
  cases hname : functionOf? name with
  | none => rfl
  | some f =>
    have hvalues : (before ++ b :: after).map (g.resolveWith (g.evaluateWithin levels)) =
        (before ++ a :: after).map (g.resolveWith (g.evaluateWithin levels)) := by
      simp only [List.map_append, List.map_cons, hvalue]
    have happly := f.apply_congr hvalues fun hliteral => by
      have hsame := hformula (hliteral ▸ name_of_functionOf? hname)
      simp only [List.map_append, List.map_cons, hsame]
    simp only [happly]

theorem valueWith_eq (h : Inlines g tree tree') (levels : Nat) :
    tree'.valueWith (g.evaluateWithin levels) = tree.valueWith (g.evaluateWithin levels) := by
  -- Along the path to the reference, with one level less at each formula.
  induction h generalizing levels with
  | @here name s before after hname hs =>
    cases levels with
    | zero => rfl
    | succ levels =>
      refine evaluateWithin_replace ?_ fun hliteral => absurd hliteral hname
      rw [resolveWith_asArgument]
      exact (tokenWith_of_isReference hs g _).symm
  | @inside name tree tree' before after hinside ih =>
    cases levels with
    | zero => rfl
    | succ levels =>
      obtain ⟨htree, htree'⟩ := hinside.isFormula
      refine evaluateWithin_replace ?_ fun _ => htree'.trans htree.symm
      rw [resolveWith_of_isFormula htree, resolveWith_of_isFormula htree']
      exact ih levels

end Inlines

/-- A tree keeps its value at each depth when a reference in it is replaced by what is in its cell. -/
theorem evaluate_inlines {g : Grid} {tree tree' : Content} (h : Inlines g tree tree')
    (depth : Int) : g.evaluate depth tree' = g.evaluate depth tree :=
  h.valueWith_eq (levelsAt depth)

def spoken : Grid :=
  ⟨[[.text "B1", .call (.aggregate .sum) [.text "C1", .integer 2], .integer 40]]⟩

def said (number text : Content) : Content :=
  .call .choice [.call (.comparison .less) [.integer 9, number], text, .blank]

/-- The formula of `B1` is put into the comparison, and then the text of `A1` into the branch. -/
theorem evaluate_said :
    Inlines spoken (said (.text "B1") (.text "A1"))
        (said (.call (.aggregate .sum) [.text "C1", .integer 2]) (.text "A1")) ∧
      Inlines spoken (said (.call (.aggregate .sum) [.text "C1", .integer 2]) (.text "A1"))
        (said (.call (.aggregate .sum) [.text "C1", .integer 2]) (.text "\"B1\"")) ∧
      spoken.evaluate 8 (said (.call (.aggregate .sum) [.text "C1", .integer 2]) (.text "\"B1\"")) =
        spoken.evaluate 8 (said (.text "B1") (.text "A1")) := by
  have hformula : Inlines spoken (said (.text "B1") (.text "A1"))
      (said (.call (.aggregate .sum) [.text "C1", .integer 2]) (.text "A1")) :=
    .inside [] _ (.here [.integer 9] [] (by simp [Function.name, Comparison.name]) rfl)
  have htext : Inlines spoken (said (.call (.aggregate .sum) [.text "C1", .integer 2]) (.text "A1"))
      (said (.call (.aggregate .sum) [.text "C1", .integer 2]) (.text "\"B1\"")) :=
    .here [_] _ (by simp [Function.name]) rfl
  exact ⟨hformula, htext, (evaluate_inlines htext 8).trans (evaluate_inlines hformula 8)⟩

end Grid

end Spreadsheet
