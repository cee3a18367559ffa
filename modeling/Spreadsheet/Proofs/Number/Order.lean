import Spreadsheet.Evaluation
import Spreadsheet.Proofs.Number.NaN
import Spreadsheet.Proofs.Number.Range

/-!
# The order of numbers

The places of the number line lie in one line, and every number other than `nan` has a place. So of two
such numbers one lies beyond the other in a direction, or both have the same place. An extremum is one
of the numbers that it is taken of and lies beyond each of them or at its place. It is found if all the
numbers have a nearest double, since the search for `nan` before it needs one.
-/

namespace Spreadsheet

namespace Number

variable {wanted : Ordering}

/-! ## Places -/

namespace Place

variable {p q r : Place}

theorem compare_swap (p q : Place) : p.compare q = (q.compare p).swap := by
  cases p with
  | «at» a =>
    cases q with
    | «at» b =>
      show Ord.compare a b = (Ord.compare b a).swap
      exact Std.OrientedCmp.eq_swap
    | _ => rfl
  | _ => cases q <;> rfl

theorem isLE_trans (h : (p.compare q).isLE = true) (h' : (q.compare r).isLE = true) :
    (p.compare r).isLE = true := by
  cases p with
  | leftEnd => cases r <;> rfl
  | rightEnd =>
    -- Nothing lies to the right of the right end.
    cases q with
    | rightEnd => exact h'
    | _ => cases h
  | «at» a =>
    cases q with
    | leftEnd => cases h
    | rightEnd =>
      cases r with
      | rightEnd => rfl
      | _ => cases h'
    | «at» b =>
      cases r with
      | leftEnd => cases h'
      | rightEnd => rfl
      | «at» c =>
        show (Ord.compare a c).isLE = true
        exact Std.TransCmp.isLE_trans h h'

instance : Std.TransCmp Place.compare where
  eq_swap := compare_swap _ _
  isLE_trans := isLE_trans

def Reaches (wanted : Ordering) (p q : Place) : Prop :=
  p.compare q = wanted ∨ p.compare q = .eq

theorem Reaches.self (wanted : Ordering) (p : Place) : Reaches wanted p p :=
  .inr Std.ReflCmp.compare_self

theorem Reaches.trans (h : Reaches wanted p q) (h' : Reaches wanted q r) : Reaches wanted p r := by
  cases wanted with
  | lt =>
    have hle : (p.compare r).isLE = true :=
      isLE_trans (Ordering.isLE_iff_eq_lt_or_eq_eq.mpr h) (Ordering.isLE_iff_eq_lt_or_eq_eq.mpr h')
    exact Ordering.isLE_iff_eq_lt_or_eq_eq.mp hle
  | eq =>
    unfold Reaches at h h' ⊢
    rw [or_self] at h h' ⊢
    exact Std.TransCmp.eq_trans h h'
  | gt =>
    have hge : (p.compare r).isGE = true :=
      Std.TransCmp.isGE_trans (Ordering.isGE_iff_eq_gt_or_eq_eq.mpr h)
        (Ordering.isGE_iff_eq_gt_or_eq_eq.mpr h')
    exact Ordering.isGE_iff_eq_gt_or_eq_eq.mp hge

/-- Of two places the second one reaches the first, unless the first lies beyond it. -/
theorem Reaches.of_compare_ne (hwanted : wanted ≠ .eq) (h : q.compare p ≠ wanted) :
    Reaches wanted p q := by
  unfold Reaches
  rw [compare_swap p q]
  cases horder : q.compare p <;> cases wanted <;> simp_all

theorem compare_eq_of_reaches (hwanted : wanted ≠ .eq) (h : Reaches wanted p q)
    (h' : Reaches wanted q p) : p.compare q = .eq := by
  unfold Reaches at h h'
  rw [compare_swap q p] at h'
  cases horder : p.compare q <;> cases wanted <;> simp_all

end Place

/-! ## Numbers -/

variable {a b c : Number}

theorem exists_place_of_isNaN (h : a.isNaN = false) : ∃ p, a.place? = some p := by
  cases a with
  | integer n => exact ⟨_, rfl⟩
  | double x =>
    cases x with
    | nan => cases h
    | infinity s => exact ⟨_, rfl⟩
    | finite s m => exact ⟨_, rfl⟩

theorem compare?_of_places {p q : Place} (hp : a.place? = some p) (hq : b.place? = some q) :
    a.compare? b = some (p.compare q) := by
  unfold compare?
  rw [hp, hq]
  rfl

def Reaches (wanted : Ordering) (a b : Number) : Prop :=
  ∃ p q, a.place? = some p ∧ b.place? = some q ∧ p.Reaches wanted q

theorem Reaches.self (h : a.isNaN = false) : Reaches wanted a a := by
  obtain ⟨p, hp⟩ := exists_place_of_isNaN h
  exact ⟨p, p, hp, hp, .self wanted p⟩

theorem Reaches.trans (h : Reaches wanted a b) (h' : Reaches wanted b c) : Reaches wanted a c := by
  obtain ⟨p, q, hp, hq, hpq⟩ := h
  obtain ⟨q', r, hq', hr, hqr⟩ := h'
  obtain rfl := Option.some.inj (hq.symm.trans hq')
  exact ⟨p, r, hp, hr, hpq.trans hqr⟩

theorem compare?_eq_of_reaches (hwanted : wanted ≠ .eq) (h : Reaches wanted a b)
    (h' : Reaches wanted b a) : a.compare? b = some .eq := by
  obtain ⟨p, q, hp, hq, hpq⟩ := h
  obtain ⟨q', p', hq', hp', hqp⟩ := h'
  obtain rfl := Option.some.inj (hp.symm.trans hp')
  obtain rfl := Option.some.inj (hq.symm.trans hq')
  rw [compare?_of_places hp hq, Place.compare_eq_of_reaches hwanted hpq hqp]

/-! ## The better of two and the best of many -/

theorem better_mem (wanted : Ordering) (a b : Number) :
    better wanted a b = a ∨ better wanted a b = b := by
  unfold better
  split
  · exact .inr rfl
  · exact .inl rfl

theorem reaches_better (hwanted : wanted ≠ .eq) (ha : a.isNaN = false) (hb : b.isNaN = false) :
    Reaches wanted (better wanted a b) a ∧ Reaches wanted (better wanted a b) b := by
  obtain ⟨p, hp⟩ := exists_place_of_isNaN ha
  obtain ⟨q, hq⟩ := exists_place_of_isNaN hb
  unfold better
  rw [compare?_of_places hq hp]
  by_cases h : q.compare p = wanted
  · rw [if_pos (congrArg some h)]
    exact ⟨⟨q, p, hq, hp, .inl h⟩, .self hb⟩
  · rw [if_neg fun heq => h (Option.some.inj heq)]
    exact ⟨.self ha, ⟨p, q, hp, hq, .of_compare_ne hwanted h⟩⟩

/-- Whether a number is one of many and reaches all of them. -/
structure IsBest (wanted : Ordering) (ns : List Number) (n : Number) : Prop where
  mem : n ∈ ns
  reaches : ∀ m ∈ ns, Reaches wanted n m

theorem isBest_foldl (hwanted : wanted ≠ .eq) {n : Number} {ns : List Number}
    (h : ∀ m ∈ n :: ns, m.isNaN = false) :
    IsBest wanted (n :: ns) (ns.foldl (better wanted) n) := by
  -- The best so far is the first of those that are still to be compared.
  induction ns generalizing n with
  | nil => exact ⟨List.mem_cons_self, List.forall_mem_singleton.mpr (.self (h n List.mem_cons_self))⟩
  | cons m ns ih =>
    obtain ⟨hn, hrest⟩ := List.forall_mem_cons.mp h
    obtain ⟨hm, hns⟩ := List.forall_mem_cons.mp hrest
    have hbetter : (better wanted n m).isNaN = false := by
      rcases better_mem wanted n m with heq | heq <;> rw [heq] <;> assumption
    -- The search goes on from the better of the first two, and what reaches this one reaches both.
    obtain ⟨hmem, hreaches⟩ := ih (List.forall_mem_cons.mpr ⟨hbetter, hns⟩)
    obtain ⟨hfirst, hothers⟩ := List.forall_mem_cons.mp hreaches
    obtain ⟨hleft, hright⟩ := reaches_better hwanted hn hm
    constructor
    · rw [List.foldl_cons]
      rcases List.mem_cons.mp hmem with heq | hmem
      · rw [heq]
        rcases better_mem wanted n m with hbest | hbest <;> rw [hbest] <;> simp
      · exact List.mem_cons_of_mem _ (List.mem_cons_of_mem _ hmem)
    · exact List.forall_mem_cons.mpr
        ⟨hfirst.trans hleft, List.forall_mem_cons.mpr ⟨hfirst.trans hright, hothers⟩⟩

/-- The best numbers of the same numbers in two orders are equal. -/
theorem IsBest.compare?_eq (hwanted : wanted ≠ .eq) {ns ms : List Number} {m n : Number}
    (h : IsBest wanted ns n) (h' : IsBest wanted ms m) (hperm : ns.Perm ms) :
    n.compare? m = some .eq :=
  compare?_eq_of_reaches hwanted (h.reaches m (hperm.mem_iff.mpr h'.mem))
    (h'.reaches n (hperm.mem_iff.mp h.mem))

/-! ## The search for `nan` -/

theorem containsNaN_of_hasDouble {ns : List Number} (hnan : ∀ n ∈ ns, n.isNaN = false)
    (h : ∀ n ∈ ns, n.HasDouble) : containsNaN ns = some false := by
  induction ns with
  | nil => rfl
  | cons n ns ih =>
    obtain ⟨hn, hns⟩ := List.forall_mem_cons.mp hnan
    obtain ⟨hdouble, hdoubles⟩ := List.forall_mem_cons.mp h
    obtain ⟨x, hx⟩ := hasDouble_iff.mp hdouble
    unfold containsNaN
    rw [hx]
    show (if x.isNaN then some true else containsNaN ns) = some false
    rw [isNaN_of_toDouble? hx, hn, if_neg Bool.false_ne_true]
    exact ih hns hdoubles

/-- The search fails at the first number without a nearest double. -/
theorem containsNaN_eq_none {ns : List Number} (hnan : ∀ n ∈ ns, n.isNaN = false)
    (h : ∃ n ∈ ns, ¬ n.HasDouble) : containsNaN ns = none := by
  -- The numbers in front of the one without a double have one, or the search has failed already.
  induction ns with
  | nil =>
    obtain ⟨n, hmem, -⟩ := h
    cases hmem
  | cons n ns ih =>
    obtain ⟨hn, hns⟩ := List.forall_mem_cons.mp hnan
    unfold containsNaN
    cases hx : n.toDouble? with
    | none => rfl
    | some x =>
      obtain ⟨m, hmem, hm⟩ := h
      have hne : m ≠ n := by
        rintro rfl
        exact hm (hasDouble_iff.mpr ⟨x, hx⟩)
      show (if x.isNaN then some true else containsNaN ns) = none
      rw [isNaN_of_toDouble? hx, hn, if_neg Bool.false_ne_true]
      exact ih hns ⟨m, (List.mem_cons.mp hmem).resolve_left hne, hm⟩

/-! ## Extrema -/

theorem exists_extremum (hwanted : wanted ≠ .eq) (empty : Number) {ns : List Number} (hne : ns ≠ [])
    (hnan : ∀ n ∈ ns, n.isNaN = false) (h : ∀ n ∈ ns, n.HasDouble) :
    ∃ n, extremum wanted empty ns = some n ∧ IsBest wanted ns n := by
  obtain ⟨n, ns, rfl⟩ := List.exists_cons_of_ne_nil hne
  refine ⟨ns.foldl (better wanted) n, ?_, isBest_foldl hwanted hnan⟩
  unfold extremum
  rw [containsNaN_of_hasDouble hnan h]
  rfl

theorem extremum_eq_none (wanted : Ordering) (empty : Number) {ns : List Number}
    (hnan : ∀ n ∈ ns, n.isNaN = false) (h : ∃ n ∈ ns, ¬ n.HasDouble) :
    extremum wanted empty ns = none := by
  unfold extremum
  rw [containsNaN_eq_none hnan h]
  rfl

end Number

end Spreadsheet
