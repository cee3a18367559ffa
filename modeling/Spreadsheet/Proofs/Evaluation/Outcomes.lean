import Spreadsheet.Proofs.Evaluation.Raising

/-!
# What evaluation comes to

A tree comes to a value and never to another tree, since whatever it is made of comes to a value first.
Aggregates come to numbers, comparisons to truth values or `nan`, and a name that stands for no function
to `nan`. All this holds at every depth and over every grid, and the only error that is ever raised on
the way is that of an exhausted stack, where fewer frames are left than the evaluation may take.

The error is indeed raised: lists nested deep enough exhaust the stack in the message of a comparison,
and so does a cell that refers to itself, if the depth is low enough.
-/

namespace Spreadsheet

open Run

namespace Grid

theorem isNumber_evaluateWithin (g : Grid) (levels : Nat) (f : Aggregate) (args : List Content) :
    (g.evaluateWithin levels (.text f.name) args).isNumber = true := by
  cases levels with
  | zero => rfl
  | succ levels =>
    rw [evaluateWithin_aggregate]
    cases f.compute (args.map (g.resolveWith (g.evaluateWithin levels))) with
    | some n => rfl
    | none => rfl

theorem evaluateWithin_comparison (g : Grid) (levels : Nat) (f : Comparison) (args : List Content) :
    g.evaluateWithin levels (.text f.name) args = .nan ∨
      ∃ value, g.evaluateWithin levels (.text f.name) args = .bool value := by
  cases levels with
  | zero => exact .inl rfl
  | succ levels =>
    cases happly : (Function.comparison f).apply (g.resolveWith (g.evaluateWithin levels)) args with
    | error e => exact .inl (evaluateWithin_fault (f := .comparison f) happly)
    | ok v =>
      right
      have hvalue := evaluateWithin_succ (f := .comparison f) happly
      simp only [Function.apply] at happly
      split at happly
      · obtain ⟨value, -, rfl⟩ := map_eq_ok happly
        exact ⟨value, hvalue⟩
      · cases happly

theorem evaluateWithin_unknown (g : Grid) (levels : Nat) {name : Json} (args : List Content)
    (h : ∀ f : Function, name ≠ .text f.name) : g.evaluateWithin levels name args = .nan := by
  cases levels with
  | zero => rfl
  | succ levels => simp only [evaluateWithin, functionOf?_eq_none h]

/-- Evaluating a tree or a token raises nothing but the error of an exhausted stack, where less
than seven frames for each level and one for each list and table around anything are left, and it
gives no tree. Aggregates give numbers, comparisons truth values or `nan`, and trees with an unknown
name `nan`. -/
theorem run_outcome (g : Grid) (depth : Int) (left : Nat) :
    (∀ name args,
      (g.run depth (.formula name args) left = .ok (g.evaluate depth (.formula name args)) ∨
        (g.run depth (.formula name args) left = .error .stackExhausted ∧
          left < 7 * levelsAt depth + max (Content.dataNestingAll args) g.dataNesting + 1)) ∧
      (g.evaluate depth (.formula name args)).isFormula = false) ∧
    (∀ (f : Aggregate) args, (g.evaluate depth (.call (.aggregate f) args)).isNumber = true) ∧
    (∀ (f : Comparison) args, g.evaluate depth (.call (.comparison f) args) = .nan ∨
      ∃ value, g.evaluate depth (.call (.comparison f) args) = .bool value) ∧
    (∀ name args, (∀ f : Function, name ≠ .text f.name) →
      g.evaluate depth (.formula name args) = .nan) ∧
    ∀ token,
      (g.runToken depth token left = .ok (g.token depth token) ∨
        (g.runToken depth token left = .error .stackExhausted ∧
          left < 7 * levelsAt depth + g.dataNesting + 2)) ∧
      (g.token depth token).isFormula = false := by
  refine ⟨fun name args => ⟨?_, ?_⟩, ?_, ?_, ?_, fun token => ⟨?_, ?_⟩⟩
  · exact runWithin_ends (le_max_right _ _) _ name (le_max_left _ _) left
  · exact isFormula_evaluateWithin g _ name args
  · exact isNumber_evaluateWithin g _
  · exact evaluateWithin_comparison g _
  · exact fun name args h => evaluateWithin_unknown g _ args h
  · -- A token pays for its own look-up on top of the cell it names.
    have hends := tokenRun_ends (g := g) le_rfl
      (fun name args hargs => runWithin_ends le_rfl (levelsAt depth) name hargs) token
    exact hends.mono (by omega) left
  · exact g.isFormula_resolveWith _ (.text token)

/-- A list in place of a name cannot be looked up, and this makes the tree `nan`. -/
theorem run_listName :
    (∀ f : Function, Json.list [.null] ≠ .text f.name) ∧
      looped.evaluate 3 (.formula (.list [.null]) [.text "A1"]) = .nan ∧
      looped.run 3 (.formula (.list [.null]) [.text "A1"]) maxFrames = .ok .nan := by
  have hname : ∀ f : Function, Json.list [.null] ≠ .text f.name := by
    intro f
    simp
  have hvalue := (run_outcome looped 3 maxFrames).2.2.2.1 _ [.text "A1"] hname
  refine ⟨hname, hvalue, ?_⟩
  rcases ((run_outcome looped 3 maxFrames).1 (.list [.null]) [.text "A1"]).1 with hok | ⟨-, hleft⟩
  · rw [hok, hvalue]
  · exact absurd hleft (by decide)

end Grid

/-! ## The exhausted stack -/

namespace Run

variable {α β : Type} {bound : Nat}

def Exhausts (bound : Nat) (x : Run α) : Prop :=
  ∀ left < bound, x left = .error .stackExhausted

theorem Exhausts.inside {x : Run α} (h : Exhausts bound x) (frames : Nat) :
    Exhausts (frames + bound) (inside frames x) := by
  intro left hleft
  unfold Run.inside
  split
  · rfl
  · exact h _ (by omega)

theorem Exhausts.catching {x : Run α} (h : Exhausts bound x) (otherwise : α) :
    Exhausts bound (catching treeClasses x otherwise) := by
  intro left hleft
  unfold Run.catching
  rw [h left hleft]
  rfl

/-- What comes before may exhaust the stack as well, but it does nothing else. -/
theorem Exhausts.bind {need : Nat} {x : Run α} {a : α} (hx : Ends need x (· = .ok a))
    {k : α → Run β} (h : Exhausts bound (k a)) : Exhausts bound (x >>= k) := by
  intro left hleft
  rw [bind_apply]
  rcases hx left with hok | ⟨hstack, -⟩
  · rw [hok]
    exact h left hleft
  · rw [hstack]
    rfl

end Run

def Json.nested : Nat → Json
  | 0 => .list []
  | n + 1 => .list [nested n]

theorem Json.shown_nested {n frames : Nat} (h : frames ≤ n) :
    (nested n).shown frames = .error .nestedTooDeeply := by
  -- Each list takes one frame off, and the last one finds none.
  induction n generalizing frames with
  | zero =>
    obtain rfl := Nat.le_zero.mp h
    rfl
  | succ n ih =>
    cases frames with
    | zero => rfl
    | succ frames =>
      show (shownItems frames [nested n]).map _ = _
      simp only [shownItems, ih (Nat.le_of_succ_le_succ h)]
      rfl

namespace Grid

/-- A comparison shows its operands, and one that is nested too deeply exhausts the stack. -/
theorem exhausts_comparison {items : List Json} {bound : Nat}
    (h : ∀ left < bound, (Json.list items).shown left = .error .nestedTooDeeply) (g : Grid)
    (levels : Nat) (f : Comparison) (n : Number) :
    Exhausts (3 + bound) (g.runWithin (levels + 1) (.text f.name) [.list items, .number n]) := by
  have hname : functionRun (.text f.name) = pure (.comparison f) :=
    functionRun_eq_pure (functionOf?_name (.comparison f))
  have hvalue : ∀ c : Content, Ends 0 (pure c : Run Content) (· = .ok c) := fun c => ends_pure rfl
  have hraise : Exhausts bound (f.run (.list items) (.number n)) := by
    intro left hleft
    show Except.error (Fault.raised left (.notComparable f (.list items) (.number n))) = _
    have hshown : (Content.list items).shown left = .error .nestedTooDeeply := by
      cases left with
      | zero => rfl
      | succ left => exact h _ hleft
    simp only [Fault.raised, hshown]
    rfl
  have hargs : Exhausts (2 + bound) ((Function.comparison f).run
      (g.resolveRun (g.runWithin levels)) [.list items, .number n]) :=
    .bind (((hvalue (.list items)).inside le_rfl).inside le_rfl)
      (.bind (((hvalue (.number n)).inside le_rfl).inside le_rfl) (hraise.inside 2))
  have htree := (hargs.catching .nan).inside 1
  simp only [runWithin, hname, pure_bind]
  exact fun left hleft => htree left (by omega)

/-- A cell that refers to itself is worked out again and again, up to the last level. -/
theorem exhausts_selfReference {g : Grid} {t : String} {a : Address}
    (ha : Address.ofSpelling? t.toList = some a) (hcell : g.content a = .literal (.text t))
    (levels : Nat) :
    Exhausts (4 * levels) (g.runWithin levels (.text "LITERAL") [.text t]) := by
  -- One round through the cell is a level and takes four frames.
  induction levels with
  | zero => exact fun left hleft => absurd hleft (Nat.not_lt_zero left)
  | succ levels ih =>
    have htoken : Exhausts (1 + 4 * levels) (g.tokenRun (g.runWithin levels) t) := by
      refine Exhausts.inside ?_ 1
      obtain ⟨r, hr, haddress⟩ := Option.bind_eq_some_iff.mp ha
      simp only [hr, r.addressRun_eq, haddress, pure_bind, contentRun_eq, hcell]
      exact ih
    have htree := (((htoken.inside 1).inside 1).catching .nan).inside 1
    intro left hleft
    exact htree left (by omega)

/-- A list that is nested 2000 deep cannot be shown, and evaluation from a depth of -5000 on does not
end within the stack. -/
theorem run_exhausted :
    (Grid.mk []).run 0 (.call (.comparison .less) [.list [Json.nested 1999], .integer 1]) maxFrames =
        .error .stackExhausted ∧
      (Grid.mk [[.literal (.text "A1")]]).run (-5000) (.literal (.text "A1")) maxFrames =
        .error .stackExhausted := by
  constructor
  · have hshown : ∀ left < 2001, (Json.list [Json.nested 1999]).shown left =
        .error .nestedTooDeeply :=
      fun left hleft => Json.shown_nested (n := 2000) (by omega)
    exact exhausts_comparison hshown ⟨[]⟩ 10 .less (.integer 1) maxFrames (by decide)
  · have hcell : Address.ofSpelling? "A1".toList = some ⟨1, ⟨0, by decide⟩, false, false⟩ := by decide
    exact exhausts_selfReference hcell rfl (levelsAt (-5000)) maxFrames (by decide)

end Grid

end Spreadsheet
