import Spreadsheet.Evaluation.Run
import Spreadsheet.Proofs.Evaluation.Values

/-!
# Steps that raise errors

With frames enough every tree gives its value, since it has a handler for whatever its own steps raise.
What is left over is the exhausted stack. It is raised only where fewer frames are left than the levels
of evaluation and the message of a comparison can take up, and the latter shows no operand that is
nested deeper than what is in the arguments and in the cells.
-/

namespace Spreadsheet

open Run

/-! ## Runs that end -/

namespace Run

variable {α β : Type} {need : Nat} {P : Except Raised α → Prop} {R : Except Raised β → Prop}

/-- Whether a property holds of what a run comes to, whatever number of frames is left, except that the
stack may be exhausted where fewer are left than needed. -/
def Ends (need : Nat) (x : Run α) (P : Except Raised α → Prop) : Prop :=
  ∀ left, P (x left) ∨ (x left = .error .stackExhausted ∧ left < need)

def Fails (r : Except Raised α) : Prop :=
  ∃ e, r = .error e ∧ e.errorClass ∈ treeClasses

theorem fails_error {e : Raised} (h : decide (e.errorClass ∈ treeClasses) = true) :
    Fails (.error e : Except Raised α) :=
  ⟨e, rfl, of_decide_eq_true h⟩

theorem bind_apply (x : Run α) (k : α → Run β) (left : Nat) :
    (x >>= k) left = x left >>= fun a => k a left := rfl

theorem ends_pure {a : α} (h : P (.ok a)) : Ends need (pure a) P :=
  fun _ => .inl h

theorem Ends.mono {need' : Nat} {x : Run α} (h : Ends need x P) (hneed : need ≤ need') :
    Ends need' x P :=
  fun left => (h left).imp_right (And.imp_right fun hleft => hleft.trans_le hneed)

theorem Ends.bind {x : Run α} {k : α → Run β} (h : Ends need x P)
    (hok : ∀ a, P (.ok a) → Ends need (k a) R) (herror : ∀ e, P (.error e) → R (.error e)) :
    Ends need (x >>= k) R := by
  intro left
  rw [bind_apply]
  rcases h left with hP | ⟨hstack, hleft⟩
  · cases hx : x left with
    | ok a =>
      rw [hx] at hP
      exact hok a hP left
    | error e =>
      rw [hx] at hP
      exact .inl (herror e hP)
  · rw [hstack]
    exact .inr ⟨rfl, hleft⟩

theorem Ends.bind_ok {x : Run α} {k : α → Run β} {a : α} (h : Ends need x (· = .ok a))
    (hk : Ends need (k a) R) : Ends need (x >>= k) R :=
  h.bind (fun _ ha => Except.ok.inj ha ▸ hk) nofun

theorem Ends.bind_fails {x : Run α} {k : α → Run β} (h : Ends need x Fails) :
    Ends need (x >>= k) Fails := by
  refine h.bind ?_ ?_
  · rintro a ⟨e, he, -⟩
    cases he
  · rintro e ⟨e', he, hclass⟩
    cases he
    exact ⟨e, rfl, hclass⟩

theorem Ends.inside {x : Run α} {frames total : Nat} (h : Ends need x P)
    (htotal : frames + need ≤ total) : Ends total (inside frames x) P := by
  intro left
  unfold Run.inside
  split
  · exact .inr ⟨rfl, by omega⟩
  · exact (h (left - frames)).imp_right (And.imp_right fun hleft => by omega)

theorem Ends.catching_ok {x : Run α} {a otherwise : α} (h : Ends need x (· = .ok a)) :
    Ends need (catching treeClasses x otherwise) (· = .ok a) := by
  intro left
  unfold Run.catching
  rcases h left with hok | ⟨hstack, hleft⟩
  · rw [hok]
    exact .inl rfl
  · rw [hstack]
    exact .inr ⟨rfl, hleft⟩

theorem Ends.catching_fails {x : Run α} {otherwise : α} (h : Ends need x Fails) :
    Ends need (catching treeClasses x otherwise) (· = .ok otherwise) := by
  intro left
  unfold Run.catching
  rcases h left with ⟨e, he, hclass⟩ | ⟨hstack, hleft⟩
  · rw [he]
    exact .inl (if_pos hclass)
  · rw [hstack]
    exact .inr ⟨rfl, hleft⟩

end Run

/-! ## Faults -/

def Content.ShownIn (frames : Nat) (c : Content) : Prop :=
  c.isFormula = false ∧ c.dataNesting < frames

theorem Content.ShownIn.lt_of_shown {c : Content} {frames left : Nat} (h : c.ShownIn frames)
    (hdeep : c.shown left = .error .nestedTooDeeply) : left < frames := by
  by_contra hleft
  exact shown_of_dataNesting_lt h.1 (h.2.trans_le (not_lt.mp hleft)) hdeep

/-- Operands that are no trees are shown before a comparison raises its fault, if there are frames for
what is nested in them, and a number in them may be too long. -/
theorem Comparison.ends_raise {need : Nat} {f : Comparison} {a b : Content}
    (ha : a.ShownIn need) (hb : b.ShownIn need) :
    Ends need (raise (Fault.notComparable f a b).raised : Run Content) Fails := by
  intro left
  simp only [raise, Fault.raised]
  rcases hshowna : a.shown left with ⟨⟨⟩⟩ | a'
  · exact .inl (fails_error rfl)
  · exact .inr ⟨rfl, ha.lt_of_shown hshowna⟩
  · rcases hshownb : b.shown left with ⟨⟨⟩⟩ | b'
    · exact .inl (fails_error rfl)
    · exact .inr ⟨rfl, hb.lt_of_shown hshownb⟩
    · exact .inl (fails_error rfl)

/-! ## Functions -/

theorem functionRun_eq_pure {name : Json} {f : Function} (h : functionOf? name = some f) :
    functionRun name = pure f := by
  obtain rfl := name_of_functionOf? h
  simp only [functionRun, h]

/-- A name that stands for no function raises an error that the tree turns into `nan`. -/
theorem functionRun_ends {name : Json} (h : functionOf? name = none) :
    Ends 1 (functionRun name) Fails := by
  intro left
  -- A name that is no text is shown in the message; one without nesting needs a single frame.
  have hraised : ∀ j : Json, j.nesting = 0 →
      Ends 1 (raise fun left => .ofName (j.shown left) : Run Function) Fails := by
    intro j hj left
    simp only [raise]
    rcases hshown : j.shown left with ⟨⟨⟩⟩ | text
    · exact .inl (fails_error rfl)
    · refine .inr ⟨rfl, ?_⟩
      by_contra hleft
      exact Json.shown_of_nesting_lt j (by omega) hshown
    · exact .inl (fails_error rfl)
  cases name with
  | list items => exact .inl (fails_error rfl)
  | table entries => exact .inl (fails_error rfl)
  | text s =>
    simp only [functionRun, h]
    exact .inl (fails_error rfl)
  | null => exact hraised .null rfl left
  | bool value => exact hraised (.bool value) rfl left
  | number n => exact hraised (.number n) rfl left

def Fault.Agrees (outcome : Except Fault Content) (r : Except Raised Content) : Prop :=
  match outcome with
  | .ok v => r = .ok v
  | .error _ => Fails r

section Steps

variable {run : Content → Run Content} {resolve : Content → Content} {need n : Nat}
  {args : List Content}

/-- A running aggregate stops early only where the values of all arguments have no result either. -/
theorem Aggregate.gather_ends (f : Aggregate)
    (h : ∀ a ∈ args, Ends need (run a) (· = .ok (resolve a))) (seen : List Content) :
    Ends need (f.gather run seen args) fun r =>
      r = .ok (seen ++ args.map resolve) ∨
        (r = .error .numberTooLarge ∧ f.compute (seen ++ args.map resolve) = none) := by
  -- The values so far grow by one at each argument.
  induction args generalizing seen with
  | nil => exact ends_pure (.inl (by simp))
  | cons a args ih =>
    obtain ⟨ha, hargs⟩ := List.forall_mem_cons.mp h
    have happend : seen ++ (a :: args).map resolve = seen ++ [resolve a] ++ args.map resolve := by
      simp
    rw [happend]
    refine ha.bind_ok ?_
    split
    · rename_i hfail
      obtain ⟨hrunning, hnone⟩ := Bool.and_eq_true_iff.mp hfail
      have hall := Aggregate.compute_append_eq_none hrunning (Option.isNone_iff_eq_none.mp hnone)
        (args.map resolve)
      exact fun _ => .inl (.inr ⟨rfl, hall⟩)
    · exact ih hargs (seen ++ [resolve a])

theorem Comparison.run_ends (f : Comparison) {a b : Content}
    (ha : a.ShownIn need) (hb : b.ShownIn need) :
    Ends need (f.run a b) (Fault.Agrees ((f.compute a b).map .bool)) := by
  have hraise := ends_raise (f := f) ha hb
  unfold Comparison.run
  cases hcompute : f.compute a b with
  | ok value => exact ends_pure rfl
  | error e =>
    unfold compute at hcompute
    split at hcompute
    · cases hcompute
    · cases hcompute
      exact hraise

/-- Where the arguments come to their values, a function comes to its own or raises an error that the
tree turns into `nan`. -/
theorem Function.run_ends (f : Function)
    (hrun : ∀ a ∈ args, Ends need (run a) (· = .ok (resolve a)))
    (hvalue : ∀ a ∈ args, (resolve a).ShownIn need) :
    Ends (4 + need) (f.run run args) (Fault.Agrees (f.apply resolve args)) := by
  -- No function takes more than four frames of its own, so one bound serves every case.
  have hframes : f.frames ≤ 4 := by
    cases f with
    | aggregate f => cases f <;> decide
    | comparison f => exact Nat.le_succ 3
    | _ => decide
  have hwork : ∀ a ∈ args, Ends (4 + need) (inside f.frames (run a)) (· = .ok (resolve a)) :=
    fun a ha => (hrun a ha).inside (Nat.add_le_add_right hframes need)
  cases f with
  | aggregate f =>
    refine (f.gather_ends hwork []).bind ?_ ?_
    · -- The gathered prefix is either the whole list, and the fold decides, or its start already
      -- settles it.
      rintro values (hvalues | ⟨hvalues, -⟩)
      · cases hvalues
        simp only [List.nil_append, Function.apply]
        cases f.compute (args.map resolve) with
        | some n => exact ends_pure rfl
        | none => exact fun _ => .inl (fails_error rfl)
      · cases hvalues
    · rintro e (he | ⟨he, hnone⟩)
      · cases he
      · cases he
        rw [List.nil_append] at hnone
        simp only [Function.apply, hnone]
        exact fails_error rfl
  | choice =>
    rcases args with _ | ⟨condition, _ | ⟨consequent, _ | ⟨alternative, _ | ⟨more, args⟩⟩⟩⟩
    case cons.cons.cons.nil =>
      -- Only the chosen branch is worked out, hence the split on the value of the condition first.
      refine (hwork condition (by simp)).bind_ok ?_
      simp only [Function.apply]
      cases resolve condition with
      | bool value =>
        cases value with
        | true => exact hwork consequent (by simp)
        | false => exact hwork alternative (by simp)
      | _ => exact ends_pure rfl
    all_goals exact fun _ => .inl (fails_error rfl)
  | comparison f =>
    rcases args with _ | ⟨left, _ | ⟨right, _ | ⟨more, args⟩⟩⟩
    case cons.cons.nil =>
      refine (hwork left (by simp)).bind_ok ((hwork right (by simp)).bind_ok ?_)
      exact (f.run_ends (hvalue left (by simp)) (hvalue right (by simp))).inside (by omega)
    all_goals exact fun _ => .inl (fails_error rfl)
  | literal =>
    cases args with
    | nil => exact ends_pure rfl
    | cons value more =>
      simp only [Function.run, Function.apply]
      split
      · exact ends_pure rfl
      · exact hwork value (by simp)

end Steps

/-! ## References and other tokens -/

theorem Reference.addressRun_eq (r : Reference) : r.addressRun = pure r.address? := by
  unfold addressRun columnRun rowRun address?
  cases Column.ofLabel? r.letters with
  | none => rfl
  | some column =>
    dsimp only
    split
    · rfl
    · rfl

namespace Grid

theorem contentRun_eq (g : Grid) (a : Address) : g.contentRun a = pure (g.content a) := by
  unfold contentRun content cell? member
  cases a.row with
  | zero => rfl
  | succ row =>
    dsimp only
    cases g.rows[row]? with
    | none => rfl
    | some cells =>
      simp only [pure_bind, Option.bind]
      cases cells[a.column.index]? with
      | none => rfl
      | some cell => rfl

def TreesEnd (need n : Nat) (run : Json → List Content → Run Content) (eval : Evaluator) : Prop :=
  ∀ name args, Content.dataNestingAll args ≤ n →
    Ends need (run name args) (· = .ok (eval name args))

section Tokens

variable {g : Grid} {run : Json → List Content → Run Content} {eval : Evaluator} {need n : Nat}

theorem valueRun_ends (h : TreesEnd need n run eval) {c : Content} (hc : c.dataNesting ≤ n) :
    Ends need (c.valueRun run) (· = .ok (c.valueWith eval)) := by
  cases c with
  | formula name args => exact h name args hc
  | _ => exact ends_pure rfl

variable (hg : g.dataNesting ≤ n) (h : TreesEnd need n run eval)

include hg h

theorem tokenRun_ends (token : String) :
    Ends (1 + need) (g.tokenRun run token) (· = .ok (g.tokenWith eval token)) := by
  -- One frame is the look-up itself; what is left must cover the cell it reads.
  refine Ends.inside ?_ (Nat.le_refl (1 + need))
  unfold tokenWith isReference Address.ofSpelling?
  dsimp only
  cases Reference.ofSpelling? token.toList with
  | some r =>
    simp only [r.addressRun_eq, pure_bind, Option.bind, Option.isSome_some, if_true]
    cases r.address? with
    | some a =>
      simp only [contentRun_eq, pure_bind]
      exact valueRun_ends h ((g.dataNesting_content_le a).trans hg)
    | none => exact ends_pure rfl
  | none =>
    simp only [Option.isSome_none, Bool.false_eq_true, if_false]
    split
    · cases Number.read token with
      | ok n => exact ends_pure rfl
      -- An unreadable number is handled where it is read, so both sides answer NaN here.
      | error e => exact fun _ => .inl rfl
    · cases ofBooleanWord? token with
      | some value => exact ends_pure rfl
      | none =>
        cases Text.unquoted? token.toList with
        | some inner => exact ends_pure rfl
        | none => exact ends_pure rfl

theorem resolveRun_ends {c : Content} (hc : c.dataNesting ≤ n) :
    Ends (2 + need) (g.resolveRun run c) (· = .ok (g.resolveWith eval c)) := by
  have hframes : 1 + (1 + need) ≤ 2 + need := by omega
  refine Ends.inside ?_ hframes
  cases c with
  | text token => exact tokenRun_ends hg h token
  | _ => exact (valueRun_ends h hc).mono (Nat.le_add_left need 1)

end Tokens

/-- Every tree gives its value, with seven frames for each level and one for each list and table that
are nested in its arguments and in the cells. -/
theorem runWithin_ends {g : Grid} {n : Nat} (hg : g.dataNesting ≤ n) (levels : Nat) (name : Json)
    {args : List Content} (hargs : Content.dataNestingAll args ≤ n) :
    Ends (7 * levels + n + 1) (g.runWithin levels name args)
      (· = .ok (g.evaluateWithin levels name args)) := by
  -- Levels and frames go down together, seven frames for each level.
  induction levels generalizing name args with
  | zero =>
    have hnan : Ends 0 (pure .nan : Run Content) (· = .ok .nan) := ends_pure rfl
    exact hnan.inside (by omega)
  | succ levels ih =>
    have hmem : ∀ a ∈ args, a.dataNesting ≤ n :=
      fun a ha => (Content.dataNesting_le ha).trans hargs
    -- One frame is for the tree, four for its function and two for an argument that is a token.
    have hneed : 1 + (4 + (2 + (7 * levels + n + 1))) ≤ 7 * (levels + 1) + n + 1 := by omega
    refine Ends.inside ?_ hneed
    simp only [evaluateWithin]
    cases hname : functionOf? name with
    | none => exact ((functionRun_ends hname).mono (by omega)).bind_fails.catching_fails
    | some f =>
      rw [functionRun_eq_pure hname]
      simp only [pure_bind]
      have hvalue : ∀ a ∈ args, (g.resolveWith (g.evaluateWithin levels) a).ShownIn
          (2 + (7 * levels + n + 1)) := by
        intro a ha
        have hnesting : (g.resolveWith (g.evaluateWithin levels) a).dataNesting ≤ n :=
          (inherits_dataNesting hg).resolveWith levels (hmem a ha)
        exact ⟨g.isFormula_resolveWith levels a, by omega⟩
      have hsteps := f.run_ends (fun a ha => resolveRun_ends hg ih (hmem a ha)) hvalue
      cases happly : f.apply (g.resolveWith (g.evaluateWithin levels)) args with
      | ok value =>
        rw [happly] at hsteps
        exact hsteps.catching_ok
      | error e =>
        rw [happly] at hsteps
        exact hsteps.catching_fails

end Grid

end Spreadsheet
