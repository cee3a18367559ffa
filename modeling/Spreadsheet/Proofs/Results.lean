import Mathlib.Data.List.Forall2

/-!
# Results

A property of what a step gives can be checked by taking the step. A result of two steps comes from a
result of the first one. What a list becomes member by member, where each step may fail, is told apart
from how it is computed.
-/

namespace Spreadsheet

/-! ## One result -/

section Decide

variable {α ε : Type} {p : α → Prop} [DecidablePred p]

instance decidableForallOk : (x : Except ε α) → Decidable (∀ a, x = .ok a → p a)
  | .ok a => decidable_of_iff (p a) (by simp)
  | .error _ => isTrue nofun

instance decidableExistsOk : (x : Except ε α) → Decidable (∃ a, x = .ok a ∧ p a)
  | .ok a => decidable_of_iff (p a) (by simp)
  | .error _ => isFalse nofun

end Decide

/-! ## Steps -/

theorem bind_eq_ok {ε α β : Type} {x : Except ε α} {k : α → Except ε β} {b : β}
    (h : x >>= k = .ok b) : ∃ a, x = .ok a ∧ k a = .ok b := by
  cases x with
  | error e => cases h
  | ok a => exact ⟨a, rfl, h⟩

theorem map_eq_ok {ε α β : Type} {x : Except ε α} {k : α → β} {b : β}
    (h : x.map k = .ok b) : ∃ a, x = .ok a ∧ k a = b := by
  cases x with
  | error e => cases h
  | ok a => exact ⟨a, rfl, Except.ok.inj h⟩

theorem bind_eq_error {ε α β : Type} {x : Except ε α} {k : α → Except ε β} {e : ε}
    (h : x >>= k = .error e) : x = .error e ∨ ∃ a, x = .ok a ∧ k a = .error e := by
  cases x with
  | error e' =>
    cases h
    exact .inl rfl
  | ok a => exact .inr ⟨a, rfl, h⟩

theorem map_eq_error {ε α β : Type} {x : Except ε α} {k : α → β} {e : ε}
    (h : x.map k = .error e) : x = .error e := by
  cases x with
  | error e' =>
    cases h
    rfl
  | ok a => cases h

/-! ## Lists of results -/

variable {α β γ δ ε ε' ε'' : Type} {f : α → Except ε β} {g : α → Except ε' γ} {k : γ → Except ε'' δ}
  {xs : List α} {ys : List β}

theorem mapM_eq_ok_iff :
    xs.mapM f = .ok ys ↔ List.Forall₂ (fun x y => f x = .ok y) xs ys := by
  constructor
  · intro h
    induction xs generalizing ys with
    | nil =>
      cases h
      exact .nil
    | cons x xs ih =>
      -- The first member is tried before the others, and either of them may fail.
      rw [List.mapM_cons] at h
      cases hx : f x with
      | error e =>
        rw [hx] at h
        cases h
      | ok y =>
        cases hxs : xs.mapM f with
        | error e =>
          rw [hx, hxs] at h
          cases h
        | ok zs =>
          rw [hx, hxs] at h
          cases h
          exact .cons hx (ih hxs)
  · intro h
    -- The other direction builds the results up along the relation.
    induction h with
    | nil => rfl
    | cons hx _ ih =>
      rw [List.mapM_cons, hx, ih]
      rfl

theorem forall_of_mapM {p : β → Prop} (h : xs.mapM f = .ok ys)
    (hp : ∀ x ∈ xs, ∀ y, f x = .ok y → p y) : ∀ y ∈ ys, p y := by
  have hall := mapM_eq_ok_iff.mp h
  clear h
  -- Member by member along the relation, which forgets how the results were computed.
  induction hall with
  | nil => nofun
  | cons hxy _ ih =>
    obtain ⟨hhead, hrest⟩ := List.forall_mem_cons.mp hp
    exact List.forall_mem_cons.mpr ⟨hhead _ hxy, ih hrest⟩

theorem exists_of_mapM {x : α} (h : xs.mapM f = .ok ys) (hx : x ∈ xs) : ∃ y, f x = .ok y := by
  have hall := mapM_eq_ok_iff.mp h
  clear h
  induction hall with
  | nil => cases hx
  | cons hxy _ ih =>
    rcases List.mem_cons.mp hx with rfl | hmem
    · exact ⟨_, hxy⟩
    · exact ih hmem

/-- Where each member of a list has a second result that leads on to a third, the list has. -/
theorem exists_mapM {h : β → δ} (hf : xs.mapM f = .ok ys)
    (hstep : ∀ x ∈ xs, ∀ y, f x = .ok y → ∃ z, g x = .ok z ∧ k z = .ok (h y)) :
    ∃ zs, xs.mapM g = .ok zs ∧ zs.mapM k = .ok (ys.map h) := by
  simp only [mapM_eq_ok_iff] at hf ⊢
  induction hf with
  | nil => exact ⟨[], .nil, .nil⟩
  | cons hxy _ ih =>
    obtain ⟨hhead, hrest⟩ := List.forall_mem_cons.mp hstep
    obtain ⟨z, hz, hk⟩ := hhead _ hxy
    obtain ⟨zs, hzs, hks⟩ := ih hrest
    exact ⟨z :: zs, .cons hz hzs, .cons hk hks⟩

theorem forall₂_of_mem {R S : α → β → Prop} (h : List.Forall₂ R xs ys)
    (hS : ∀ x, ∀ y ∈ ys, R x y → S x y) : List.Forall₂ S xs ys := by
  induction h with
  | nil => exact .nil
  | cons hxy _ ih =>
    exact .cons (hS _ _ List.mem_cons_self hxy)
      (ih fun x y hy => hS x y (List.mem_cons_of_mem _ hy))

/-- Lists whose members have the same results in turn have the same results. -/
theorem mapM_congr {xs : List α} {zs : List γ} {f : α → Except ε β} {g : γ → Except ε β}
    (h : List.Forall₂ (fun x z => f x = g z) xs zs) : xs.mapM f = zs.mapM g := by
  induction h with
  | nil => rfl
  | cons hxz _ ih => rw [List.mapM_cons, List.mapM_cons, hxz, ih]

theorem exists_mapM_of_forall (h : ∀ x ∈ xs, ∃ y, f x = .ok y) : ∃ ys, xs.mapM f = .ok ys := by
  simp only [mapM_eq_ok_iff]
  induction xs with
  | nil => exact ⟨[], .nil⟩
  | cons x xs ih =>
    obtain ⟨⟨y, hy⟩, hrest⟩ := List.forall_mem_cons.mp h
    obtain ⟨ys, hys⟩ := ih hrest
    exact ⟨y :: ys, .cons hy hys⟩

theorem mapM_replicate {x : α} {y : β} (h : f x = .ok y) (n : Nat) :
    (List.replicate n x).mapM f = .ok (List.replicate n y) := by
  induction n with
  | zero => rfl
  | succ n ih =>
    rw [List.replicate_succ, List.mapM_cons, h, ih]
    rfl

theorem mapM_append_eq_ok {xs' : List α} {ys' : List β} (h : xs.mapM f = .ok ys)
    (h' : xs'.mapM f = .ok ys') : (xs ++ xs').mapM f = .ok (ys ++ ys') := by
  rw [List.mapM_append, h, h']
  rfl

/-! ## Numbered results -/

section Range

variable {n : Nat} {f : Nat → Except ε β}

theorem getElem?_of_mapM_range (h : (List.range n).mapM f = .ok ys) {i : Nat} (hi : i < n) :
    ∃ y, ys[i]? = some y ∧ f i = .ok y := by
  obtain ⟨hlength, hall⟩ := List.forall₂_iff_get.mp (mapM_eq_ok_iff.mp h)
  have hxs : i < (List.range n).length := by rwa [List.length_range]
  have hys : i < ys.length := by rwa [← hlength]
  refine ⟨ys[i], List.getElem?_eq_getElem hys, ?_⟩
  have hstep := hall i hxs hys
  simp only [List.get_eq_getElem, List.getElem_range] at hstep
  exact hstep

theorem length_of_mapM_range (h : (List.range n).mapM f = .ok ys) : ys.length = n := by
  rw [← (mapM_eq_ok_iff.mp h).length_eq, List.length_range]

theorem exists_first_of_mapM_range {e : ε} (h : (List.range n).mapM f = .error e) :
    ∃ i < n, f i = .error e ∧ ∀ j < i, ∃ y, f j = .ok y := by
  -- The range grows at its end, so an error in its front is the first one, and else it is the last
  -- step.
  induction n with
  | zero => cases h
  | succ n ih =>
    rw [List.range_succ, List.mapM_append] at h
    cases hrange : (List.range n).mapM f with
    | error e' =>
      rw [hrange] at h
      cases h
      obtain ⟨i, hi, hfirst⟩ := ih hrange
      exact ⟨i, by omega, hfirst⟩
    | ok ys =>
      rw [hrange, List.mapM_cons, List.mapM_nil] at h
      cases hn : f n with
      | error e' =>
        rw [hn] at h
        cases h
        refine ⟨n, by omega, hn, fun j hj => ?_⟩
        obtain ⟨y, -, hy⟩ := getElem?_of_mapM_range hrange hj
        exact ⟨y, hy⟩
      | ok y =>
        rw [hn] at h
        cases h

/-- Of numbered steps the first one that fails decides. -/
theorem mapM_range_eq_error_iff {e : ε} :
    (List.range n).mapM f = .error e ↔ ∃ i < n, f i = .error e ∧ ∀ j < i, ∃ y, f j = .ok y := by
  constructor
  · exact exists_first_of_mapM_range
  · rintro ⟨i, hi, hi', hbefore⟩
    cases hrange : (List.range n).mapM f with
    | ok ys =>
      obtain ⟨y, -, hy⟩ := getElem?_of_mapM_range hrange hi
      rw [hi'] at hy
      cases hy
    | error e' =>
      obtain ⟨j, hj, hj', hbefore'⟩ := exists_first_of_mapM_range hrange
      -- Either failure has none in front of it, so they are the same.
      have hij : i = j := by
        by_contra hne
        rcases Nat.lt_or_gt_of_ne hne with hlt | hlt
        · obtain ⟨y, hy⟩ := hbefore' i hlt
          rw [hi'] at hy
          cases hy
        · obtain ⟨y, hy⟩ := hbefore j hlt
          rw [hj'] at hy
          cases hy
      rw [← hij, hi'] at hj'
      exact congrArg Except.error (Except.error.inj hj').symm

end Range

end Spreadsheet
