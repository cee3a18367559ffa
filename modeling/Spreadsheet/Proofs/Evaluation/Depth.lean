import Spreadsheet.Proofs.Evaluation.Renaming

/-!
# How the depth bears on a value

Beyond the greatest depth every formula is `nan`, and nearly every function hands this `nan` on. So a
value other than `nan` is mostly the same at every smaller depth, where more formulas are worked out.
A comparison is the exception: it makes a truth value of `nan`. The value stays the same unless a
comparison on the way has an operand that is `nan` at the one depth and something else at the other.
-/

namespace Spreadsheet

/-- A function other than a comparison that comes to something other than `nan` has worked out no
argument to `nan`. -/
theorem Function.isNaN_of_consulted {resolve : Content → Content} {f : Function}
    {args : List Content} {v : Content} (h : f.apply resolve args = .ok v) (hv : v ≠ .nan)
    (hf : ∀ g, f ≠ .comparison g) : ∀ a ∈ f.consulted resolve args, resolve a ≠ .nan := by
  intro a ha hnan
  apply hv
  cases f with
  | aggregate f =>
    have hmem : Content.nan ∈ args.map resolve :=
      List.mem_map.mpr ⟨a, Aggregate.mem_of_taken ha, hnan⟩
    simp only [apply] at h
    split at h
    · rename_i n hcompute
      cases h
      rw [Aggregate.compute_eq_nan hcompute hmem]
      rfl
    · cases h
  -- The arguments consulted depend on the value of the condition: itself and one branch.
  | choice =>
    simp only [apply] at h
    simp only [consulted] at ha
    split at h
    · rename_i condition consequent alternative
      dsimp only at ha
      split at h
      · rename_i htrue
        cases h
        rw [htrue] at ha
        rcases List.mem_pair.mp ha with rfl | rfl
        · rw [htrue] at hnan
          cases hnan
        · exact hnan
      · rename_i hfalse
        cases h
        rw [hfalse] at ha
        rcases List.mem_pair.mp ha with rfl | rfl
        · rw [hfalse] at hnan
          cases hnan
        · exact hnan
      · cases h
        rfl
    · cases h
  | comparison g => exact absurd rfl (hf g)
  | literal =>
    cases args with
    | nil => cases ha
    | cons value more =>
      simp only [apply, Except.ok.injEq] at h
      simp only [consulted] at ha
      split at ha
      · cases ha
      · rename_i hvalue
        rw [if_neg hvalue] at h
        obtain rfl := List.mem_singleton.mp ha
        exact h.symm.trans hnan

namespace Grid

variable {g : Grid}

/-! ## Evaluation from one depth to the next -/

theorem levelsAt_succ {depth : Int} (h : depth ≤ maxDepth) :
    levelsAt depth = levelsAt (depth + 1) + 1 := by
  unfold levelsAt
  omega

theorem levelsAt_eq_zero {depth : Int} (h : maxDepth < depth) : levelsAt depth = 0 := by
  unfold levelsAt
  omega

theorem evaluate_of_lt {depth : Int} (h : maxDepth < depth) (name : Json) (args : List Content) :
    g.evaluate depth (.formula name args) = .nan := by
  show g.evaluateWithin (levelsAt depth) name args = .nan
  rw [levelsAt_eq_zero h]
  rfl

/-- The value of a tree within the greatest depth, from those of its arguments one deeper. -/
theorem evaluate_formula {depth : Int} (h : depth ≤ maxDepth) (name : Json) (args : List Content) :
    g.evaluate depth (.formula name args) =
      match functionOf? name with
      | none => .nan
      | some f =>
        match f.apply (g.resolve (depth + 1)) args with
        | .ok value => value
        | .error _ => .nan := by
  show g.evaluateWithin (levelsAt depth) name args = _
  rw [levelsAt_succ h]
  rfl

theorem evaluate_call {depth : Int} (h : depth ≤ maxDepth) {f : Function} {args : List Content}
    {v : Content} (hv : g.apply (depth + 1) f args = .ok v) : g.evaluate depth (.call f args) = v := by
  show g.evaluateWithin (levelsAt depth) (.text f.name) args = v
  rw [levelsAt_succ h]
  exact evaluateWithin_succ hv

/-- A token under a literal is worked out one deeper than the literal. -/
theorem evaluate_literal {depth : Int} (h : depth ≤ maxDepth) (s : String) :
    g.evaluate depth (.literal (.text s)) = g.token (depth + 1) s :=
  evaluate_call (f := .literal) h rfl

theorem evaluate_aggregate {depth : Int} (h : depth ≤ maxDepth) (f : Aggregate)
    (args : List Content) :
    g.evaluate depth (.call (.aggregate f) args) =
      Aggregate.outcome (f.compute (args.map (g.resolve (depth + 1)))) := by
  show g.evaluateWithin (levelsAt depth) (.text f.name) args = _
  rw [levelsAt_succ h]
  exact evaluateWithin_aggregate f args

theorem evaluateText_of_parse {text : String} {tree : Content}
    (h : Formula.parse text = .ok tree) (depth : Int) :
    g.evaluateText depth text = .ok (g.evaluate depth tree) := by
  unfold evaluateText
  rw [h]
  rfl

/-! ## What evaluation comes to on the way -/

/-- The tree that an argument stands for, or what else is in its place: a reference stands for what is
in its cell. -/
def target (g : Grid) : Content → Content
  | .text s => if isReference s.toList then g.referent s else .text s
  | c => c

theorem resolve_of_isFormula {a : Content} (h : (g.target a).isFormula = true) (depth : Int) :
    g.resolve depth a = g.evaluate depth (g.target a) := by
  cases a with
  | text s =>
    unfold target at h ⊢
    dsimp only at h ⊢
    split at h
    · rename_i hs
      rw [if_pos hs]
      exact tokenWith_of_isReference hs g _
    · cases h
  | _ => rfl

/-- An argument that stands for no tree comes to the same at every depth. -/
theorem resolve_of_not_isFormula {a : Content} (h : (g.target a).isFormula = false) (d e : Int) :
    g.resolve d a = g.resolve e a := by
  cases a with
  | text s =>
    unfold target at h
    dsimp only at h
    show g.tokenWith _ s = g.tokenWith _ s
    split at h
    · rename_i hs
      rw [tokenWith_of_isReference hs, tokenWith_of_isReference hs,
        Content.valueWith_of_isFormula h, Content.valueWith_of_isFormula h]
    · rename_i hs
      exact tokenWith_of_not_isReference (Bool.not_eq_true _ ▸ hs) g g _ _
  | formula name args => cases h
  | _ => rfl

/-- Whether evaluating a tree at a depth works out another one on the way, and at which depth. -/
inductive Visits (g : Grid) : (depth : Int) → Content → (depth' : Int) → Content → Prop
  | self {depth : Int} {tree : Content} : depth ≤ maxDepth → Visits g depth tree depth tree
  | argument {depth depth' : Int} {name : Json} {args : List Content} {f : Function}
      {a tree : Content} :
      depth ≤ maxDepth → functionOf? name = some f →
      a ∈ f.consulted (g.resolve (depth + 1)) args →
      Visits g (depth + 1) (g.target a) depth' tree →
      Visits g depth (.formula name args) depth' tree

theorem Visits.of_formula {depth depth' : Int} {name : Json} {args : List Content} {tree : Content}
    (h : g.Visits depth (.formula name args) depth' tree) :
    (depth' = depth ∧ tree = .formula name args) ∨
      ∃ f a, functionOf? name = some f ∧ a ∈ f.consulted (g.resolve (depth + 1)) args ∧
        g.Visits (depth + 1) (g.target a) depth' tree := by
  cases h with
  | self => exact .inl ⟨rfl, rfl⟩
  | argument _ hname ha h => exact .inr ⟨_, _, hname, ha, h⟩

/-- Whether an operand of a comparison that evaluating a tree at the deeper of two depths works out
is `nan` only if it is `nan` on the way from the other depth as well. -/
def Steady (g : Grid) (depth deeper : Int) (tree : Content) : Prop :=
  ∀ (depth' : Int) (f : Comparison) (a b : Content),
    g.Visits deeper tree depth' (.call (.comparison f) [a, b]) →
    ∀ c ∈ [a, b], g.resolve (depth' + 1) c = .nan →
      g.resolve (depth' + 1 - (deeper - depth)) c = .nan

theorem Steady.argument {depth deeper : Int} {name : Json} {args : List Content} {f : Function}
    {a : Content} (h : g.Steady depth deeper (.formula name args)) (hdeeper : deeper ≤ maxDepth)
    (hname : functionOf? name = some f)
    (ha : a ∈ f.consulted (g.resolve (deeper + 1)) args) :
    g.Steady (depth + 1) (deeper + 1) (g.target a) := by
  intro depth' f' left right hvisits c hc hnan
  rw [Int.add_sub_add_right]
  exact h depth' f' left right (.argument hdeeper hname ha hvisits) c hc hnan

/-- An argument that is `nan` leaves a tree at `nan`, unless a comparison works it out. -/
theorem Steady.resolve_eq_nan {depth deeper : Int} {name : Json} {args : List Content}
    {f : Function} {a value : Content} (h : g.Steady depth deeper (.formula name args))
    (hdeeper : deeper ≤ maxDepth) (hname : functionOf? name = some f)
    (happly : f.apply (g.resolve (deeper + 1)) args = .ok value) (hvalue : value ≠ .nan)
    (ha : a ∈ f.consulted (g.resolve (deeper + 1)) args) (hnan : g.resolve (deeper + 1) a = .nan) :
    g.resolve (depth + 1) a = .nan := by
  by_cases hcomparison : ∃ f', f = .comparison f'
  · obtain ⟨f', rfl⟩ := hcomparison
    obtain rfl := name_of_functionOf? hname
    simp only [Function.consulted] at ha
    split at ha
    · rename_i left right
      have hoperand := h deeper f' left right (.self hdeeper) a ha hnan
      have hdepth : deeper + 1 - (deeper - depth) = depth + 1 := by omega
      rwa [hdepth] at hoperand
    · cases ha
  · have hother : ∀ f', f ≠ .comparison f' := fun f' hf => hcomparison ⟨f', hf⟩
    exact absurd hnan (Function.isNaN_of_consulted happly hvalue hother a ha)

/-! ## The value at a smaller depth -/

/-- A tree keeps a value other than `nan` at a smaller depth, unless a comparison on the way has an
operand that is `nan` only at the greater one. -/
theorem evaluate_of_steady {depth deeper : Int} {tree : Content} (hle : depth ≤ deeper)
    (hvalue : g.evaluate deeper tree ≠ .nan) (hsteady : g.Steady depth deeper tree) :
    g.evaluate depth tree = g.evaluate deeper tree := by
  -- The induction is on the levels that are left at the deeper of the two depths.
  induction hlevels : levelsAt deeper generalizing depth deeper tree with
  | zero =>
    cases tree with
    | formula name args =>
      have hdeeper : maxDepth < deeper := by
        unfold levelsAt at hlevels
        omega
      exact absurd (evaluate_of_lt hdeeper name args) hvalue
    | _ => rfl
  | succ levels ih =>
    cases tree with
    | formula name args =>
      have hdeeper : deeper ≤ maxDepth := by
        unfold levelsAt at hlevels
        omega
      rw [levelsAt_succ hdeeper] at hlevels
      rw [evaluate_formula hdeeper] at hvalue
      rw [evaluate_formula hdeeper, evaluate_formula (hle.trans hdeeper)]
      cases hname : functionOf? name with
      | none => rfl
      | some f =>
        rw [hname] at hvalue
        dsimp only at hvalue ⊢
        cases happly : f.apply (g.resolve (deeper + 1)) args with
        | error _ =>
          rw [happly] at hvalue
          exact absurd rfl hvalue
        | ok value =>
          rw [happly] at hvalue
          dsimp only at hvalue
          have hsame : ∀ a ∈ f.consulted (g.resolve (deeper + 1)) args,
              g.resolve (depth + 1) a = g.resolve (deeper + 1) a := by
            intro a ha
            by_cases hnan : g.resolve (deeper + 1) a = .nan
            · rw [hnan]
              exact hsteady.resolve_eq_nan hdeeper hname happly hvalue ha hnan
            cases hformula : (g.target a).isFormula with
            | false => exact resolve_of_not_isFormula hformula _ _
            | true =>
              rw [resolve_of_isFormula hformula] at hnan
              rw [resolve_of_isFormula hformula, resolve_of_isFormula hformula]
              exact ih (by omega) hnan (hsteady.argument hdeeper hname ha) (by omega)
          rw [Function.apply_eq_of_consulted hsame, happly]
    | _ => rfl

def doubted : Content :=
  .call .choice
    [.call (.comparison .notEqual) [.call (.aggregate .average) [], .integer 1],
      .text "B1", .text "C1"]

theorem steady_doubted : looped.Steady 0 9 doubted := by
  intro depth f a b h c hc hnan
  obtain ⟨-, htree⟩ | ⟨f', a', hname, ha, h⟩ := h.of_formula
  · simp [Content.call] at htree
  obtain rfl : Function.choice = f' := Option.some.inj hname
  -- Only the condition and the branch it takes are consulted.
  have hchosen : a' = .call (.comparison .notEqual) [.call (.aggregate .average) [], .integer 1] ∨
      a' = .text "B1" := List.mem_pair.mp ha
  obtain rfl | rfl := hchosen
  · obtain ⟨rfl, htree⟩ | ⟨f', a', hname, ha, h⟩ := h.of_formula
    · obtain ⟨-, rfl, rfl⟩ : _ ∧ a = _ ∧ b = _ := by simpa [Content.call] using htree
      obtain rfl | rfl := List.mem_pair.mp hc
      · rfl
      · cases hnan
    · obtain rfl : Function.comparison .notEqual = f' := Option.some.inj hname
      obtain rfl | rfl := List.mem_pair.mp ha
      · obtain ⟨-, htree⟩ | ⟨f', a', hname, ha, h⟩ := h.of_formula
        · simp [Content.call] at htree
        · obtain rfl : Function.aggregate .average = f' := Option.some.inj hname
          cases ha
      · cases h
  · cases h

theorem evaluate_doubted :
    looped.evaluate 9 doubted ≠ .nan ∧ looped.Steady 0 9 doubted ∧
      looped.evaluate 0 doubted = looped.evaluate 9 doubted := by
  have hvalue : looped.evaluate 9 doubted ≠ .nan := by
    rw [show looped.evaluate 9 doubted = .integer 3 from rfl]
    simp [Content.nan, Number.nan, Content.integer]
  exact ⟨hvalue, steady_doubted, evaluate_of_steady (by decide) hvalue steady_doubted⟩

def ordered : Content :=
  .call (.comparison .less) [.call .literal [.integer 1], .call .literal [.integer 2]]

/-- The numbers of a comparison at the greatest depth are beyond it, so the comparison sees `nan` and
comes to another truth value than at smaller depths. -/
theorem evaluate_ordered_ne :
    (⟨[]⟩ : Grid).evaluate 10 ordered ≠ .nan ∧
      (⟨[]⟩ : Grid).evaluate 0 ordered ≠ (⟨[]⟩ : Grid).evaluate 10 ordered := by
  have hholds : Comparison.less.holds ((Number.integer 1).compare? (.integer 2)) = true := by
    decide +kernel
  have hdeep : (⟨[]⟩ : Grid).evaluate 10 ordered = .bool false := rfl
  have hshallow : (⟨[]⟩ : Grid).evaluate 0 ordered = .bool true := by
    show Content.bool (Comparison.less.holds ((Number.integer 1).compare? (.integer 2))) = _
    rw [hholds]
  rw [hdeep, hshallow]
  exact ⟨by simp [Content.nan], by simp⟩

end Grid

end Spreadsheet
