import Spreadsheet.Proofs.Evaluation.Arguments
import Spreadsheet.Proofs.Formula.Twins
import Spreadsheet.Proofs.Formula.Words

/-!
# Evaluating formulas with other texts

The texts of a formula are renamed, and so are those of the formulas in the grid. If every reference
then stands for what it stood for, itself renamed, then every formula has the value that it had, at
each depth.
-/

namespace Spreadsheet

namespace Content

theorem mapTexts_eq_map (rename : String → String) (args : List Content) :
    mapTexts rename args = args.map (mapText rename) := by
  induction args with
  | nil => rfl
  | cons arg args ih => rw [mapTexts_cons, ih, List.map_cons]

theorem isFormula_mapText (rename : String → String) (c : Content) :
    (c.mapText rename).isFormula = c.isFormula := by
  cases c <;> rfl

theorem exists_of_isFormula {c : Content} (h : c.isFormula = true) :
    ∃ name args, c = .formula name args := by
  cases c with
  | formula name args => exact ⟨name, args, rfl⟩
  | _ => cases h

theorem opened_of_isFormula {c : Content} (h : c.isFormula = true) : Grid.opened c = c := by
  obtain ⟨name, args, rfl⟩ := exists_of_isFormula h
  rfl

def renamed (rename : String → String) (c : Content) : Content :=
  if c.isFormula then c.mapText rename else c

theorem renamed_of_isFormula {c : Content} (h : c.isFormula = true) (rename : String → String) :
    c.renamed rename = c.mapText rename :=
  if_pos h

theorem renamed_of_not_isFormula {c : Content} (h : c.isFormula = false)
    (rename : String → String) : c.renamed rename = c :=
  if_neg (by rw [h]; exact Bool.false_ne_true)

theorem isFormula_renamed (rename : String → String) (c : Content) :
    (c.renamed rename).isFormula = c.isFormula := by
  unfold renamed
  split
  · exact isFormula_mapText rename c
  · rfl

end Content

theorem Function.apply_map {resolve resolve' : Content → Content} {f : Content → Content}
    {args : List Content} (hformula : ∀ arg, (f arg).isFormula = arg.isFormula)
    (hresolve : ∀ arg ∈ args, resolve' (f arg) = resolve arg) (g : Function) :
    g.apply resolve' (args.map f) = g.apply resolve args := by
  apply g.apply_congr
  · rw [List.map_map]
    exact List.map_congr_left hresolve
  · intro _
    rw [List.map_map]
    exact List.map_congr_left fun arg _ => hformula arg

namespace Grid

def referent (g : Grid) (s : String) : Content :=
  match Address.ofSpelling? s.toList with
  | some a => g.content a
  | none => .blank

theorem referent_eq {g : Grid} {s : String} {a : Address}
    (h : Address.ofSpelling? s.toList = some a) : g.referent s = g.content a := by
  unfold referent
  rw [h]

theorem referent_eq_blank {g : Grid} {s : String} (h : Address.ofSpelling? s.toList = none) :
    g.referent s = .blank := by
  unfold referent
  rw [h]

theorem tokenWith_of_isReference {s : String} (h : isReference s.toList = true) (g : Grid)
    (eval : Evaluator) : g.tokenWith eval s = (g.referent s).valueWith eval := by
  unfold tokenWith referent
  rw [if_pos h]
  cases Address.ofSpelling? s.toList with
  | some a => rfl
  | none => rfl

/-- No other text depends on the grid. -/
theorem tokenWith_of_not_isReference {s : String} (h : isReference s.toList = false)
    (g g' : Grid) (eval eval' : Evaluator) : g'.tokenWith eval' s = g.tokenWith eval s := by
  unfold tokenWith
  simp only [h, Bool.false_eq_true, if_false]

/-- Whether the texts of a kind can be renamed from one grid to another: a reference to what it stands
for, renamed in turn, and all else to itself. The formulas that are reached have texts of this kind
only. -/
structure Carries (kind : String → Prop) (rename : String → String) (g g' : Grid) : Prop where
  eq_self : ∀ s, isReference s.toList = false → rename s = s
  isReference_rename : ∀ s, kind s → isReference s.toList = true →
    isReference (rename s).toList = true
  referent : ∀ s, kind s → isReference s.toList = true →
    g'.referent (rename s) = (g.referent s).renamed rename
  texts : ∀ s, kind s → isReference s.toList = true → (g.referent s).isFormula = true →
    ∀ t ∈ (g.referent s).texts, kind t

namespace Carries

variable {kind : String → Prop} {rename : String → String} {g g' : Grid} {eval eval' : Evaluator}

def Agree (kind : String → Prop) (rename : String → String) (eval eval' : Evaluator) : Prop :=
  ∀ name args, (∀ s ∈ Content.textsOfAll args, kind s) →
    eval' name (Content.mapTexts rename args) = eval name args

theorem valueWith_renamed (h : Agree kind rename eval eval') {c : Content}
    (hc : c.isFormula = true → ∀ s ∈ c.texts, kind s) :
    (c.renamed rename).valueWith eval' = c.valueWith eval := by
  cases c with
  | formula name args => exact h name args (hc rfl)
  | _ => rfl

theorem tokenWith_rename (hg : Carries kind rename g g') (h : Agree kind rename eval eval')
    {s : String} (hs : kind s) : g'.tokenWith eval' (rename s) = g.tokenWith eval s := by
  cases hreference : isReference s.toList with
  | false =>
    rw [hg.eq_self s hreference]
    exact tokenWith_of_not_isReference hreference g g' eval eval'
  | true =>
    rw [tokenWith_of_isReference hreference,
      tokenWith_of_isReference (hg.isReference_rename s hs hreference), hg.referent s hs hreference]
    exact valueWith_renamed h (hg.texts s hs hreference)

theorem resolveWith_mapText (hg : Carries kind rename g g') (h : Agree kind rename eval eval')
    {c : Content} (hc : ∀ s ∈ c.texts, kind s) :
    g'.resolveWith eval' (c.mapText rename) = g.resolveWith eval c := by
  cases c with
  | text s => exact hg.tokenWith_rename h (hc s List.mem_cons_self)
  | formula name args => exact h name args hc
  | _ => rfl

theorem agree_evaluateWithin (hg : Carries kind rename g g') (levels : Nat) :
    Agree kind rename (g.evaluateWithin levels) (g'.evaluateWithin levels) := by
  -- A level further in, the arguments and the cells they refer to are evaluated with one level less.
  induction levels with
  | zero =>
    intro name args _
    rfl
  | succ levels ih =>
    intro name args hargs
    have hresolve : ∀ arg ∈ args,
        g'.resolveWith (g'.evaluateWithin levels) (arg.mapText rename) =
          g.resolveWith (g.evaluateWithin levels) arg := by
      intro arg harg
      apply hg.resolveWith_mapText ih
      intro s hs
      exact hargs s (Content.texts_subset_textsOfAll harg hs)
    show g'.evaluateWithin (levels + 1) name (Content.mapTexts rename args) =
      g.evaluateWithin (levels + 1) name args
    simp only [evaluateWithin, Content.mapTexts_eq_map,
      Function.apply_map (Content.isFormula_mapText rename) hresolve]

/-- A tree with renamed texts has the value of the tree, at each depth. -/
theorem evaluate_mapText (hg : Carries kind rename g g') {tree : Content}
    (hformula : tree.isFormula = true) (htree : ∀ s ∈ tree.texts, kind s) (depth : Int) :
    g'.evaluate depth (tree.mapText rename) = g.evaluate depth tree := by
  have hvalue := valueWith_renamed (hg.agree_evaluateWithin (levelsAt depth)) fun _ => htree
  rw [Content.renamed_of_isFormula hformula] at hvalue
  exact hvalue

end Carries

end Grid

end Spreadsheet
