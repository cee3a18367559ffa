import Spreadsheet.Number.Fold

/-!
# What is no number spreads

An operation on numbers of which one is `nan` comes to `nan`, unless it fails. The same holds of every
function of many numbers, wherever the `nan` stands among them.
-/

namespace Spreadsheet

namespace Double

theorem isNaN_iff {x : Double} : x.isNaN = true ↔ x = .nan := by
  cases x <;> simp [isNaN]

def Spreads (op : Double → Double → Double) : Prop :=
  ∀ x, op .nan x = .nan ∧ op x .nan = .nan

theorem add_spreads : Spreads add := by
  intro x
  cases x <;> exact ⟨rfl, rfl⟩

theorem sub_spreads : Spreads sub := by
  intro x
  exact ⟨(add_spreads x.neg).1, (add_spreads x).2⟩

theorem mul_spreads : Spreads mul := by
  intro x
  cases x <;> exact ⟨rfl, rfl⟩

theorem div_spreads : Spreads div := by
  intro x
  cases x <;> exact ⟨rfl, rfl⟩

end Double

namespace Number

theorem isNaN_iff {n : Number} : n.isNaN = true ↔ n = .nan := by
  cases n with
  | integer n => simp [isNaN, nan]
  | double x => simp [isNaN, nan, Double.isNaN_iff]

def Spreads (op : Number → Number → Option Number) : Prop :=
  ∀ ⦃a b c⦄, op a b = some c → a = .nan ∨ b = .nan → c = .nan

theorem onDoubles_spreads {op : Double → Double → Double} (hop : Double.Spreads op) :
    Spreads (onDoubles op) := by
  intro a b c h hnan
  obtain ⟨x, hx, h⟩ := Option.bind_eq_some_iff.mp h
  obtain ⟨y, hy, h⟩ := Option.bind_eq_some_iff.mp h
  cases h
  rcases hnan with rfl | rfl
  · cases hx
    exact congrArg Number.double (hop y).1
  · cases hy
    exact congrArg Number.double (hop x).2

theorem spreads_of_eq_onDoubles {op : Number → Number → Option Number}
    {onDouble : Double → Double → Double} (hop : Double.Spreads onDouble)
    (heq : ∀ a b, a = .nan ∨ b = .nan → op a b = onDoubles onDouble a b) : Spreads op := by
  intro a b c h hnan
  rw [heq a b hnan] at h
  exact onDoubles_spreads hop h hnan

theorem add_spreads : Spreads add := by
  apply spreads_of_eq_onDoubles Double.add_spreads
  rintro a b (rfl | rfl)
  · rfl
  · cases a <;> rfl

theorem sub_spreads : Spreads sub := by
  apply spreads_of_eq_onDoubles Double.sub_spreads
  rintro a b (rfl | rfl)
  · rfl
  · cases a <;> rfl

theorem mul_spreads : Spreads mul := by
  apply spreads_of_eq_onDoubles Double.mul_spreads
  rintro a b (rfl | rfl)
  · rfl
  · cases a <;> rfl

theorem ratio_spreads : Spreads ratio := by
  apply spreads_of_eq_onDoubles Double.div_spreads
  rintro a b (rfl | rfl)
  · rfl
  · cases a <;> rfl

theorem div_spreads : Spreads div := by
  intro a b c h hnan
  unfold div at h
  split at h
  · rename_i hzero
    -- No zero is `nan`, so the dividend is.
    rcases hnan with rfl | rfl
    · obtain ⟨y, -, h⟩ := Option.bind_eq_some_iff.mp h
      exact (Option.some.inj h).symm
    · cases hzero
  · exact ratio_spreads h hnan

/-! ## Functions of many numbers -/

/-- A fold that starts from `nan` or meets one on its way ends with it. -/
theorem foldlM_eq_nan {op : Number → Number → Option Number} (hop : Spreads op)
    {start n : Number} {ns : List Number} (h : ns.foldlM op start = some n)
    (hnan : start = .nan ∨ .nan ∈ ns) : n = .nan := by
  -- The `nan` is in the number so far, or it is still to come.
  induction ns generalizing start with
  | nil =>
    cases h
    simpa using hnan
  | cons m ns ih =>
    rw [List.foldlM_cons] at h
    obtain ⟨next, hnext, h⟩ := Option.bind_eq_some_iff.mp h
    apply ih h
    rcases hnan with hstart | hmem
    · exact Or.inl (hop hnext (Or.inl hstart))
    · rcases List.mem_cons.mp hmem with hm | hmem
      · exact Or.inl (hop hnext (Or.inr hm.symm))
      · exact Or.inr hmem

theorem sum_eq_nan {n : Number} {ns : List Number} (h : sum ns = some n) (hnan : .nan ∈ ns) :
    n = .nan :=
  foldlM_eq_nan add_spreads h (Or.inr hnan)

theorem product_eq_nan {n : Number} {ns : List Number} (h : product ns = some n)
    (hnan : .nan ∈ ns) : n = .nan :=
  foldlM_eq_nan mul_spreads h (Or.inr hnan)

/-- The first number starts the fold, and the others are met on its way. -/
theorem difference_eq_nan {n : Number} {ns : List Number} (h : difference ns = some n)
    (hnan : .nan ∈ ns) : n = .nan := by
  cases ns with
  | nil => cases hnan
  | cons m ns => exact foldlM_eq_nan sub_spreads h ((List.mem_cons.mp hnan).imp_left Eq.symm)

theorem quotient_eq_nan {n : Number} {ns : List Number} (h : quotient ns = some n)
    (hnan : .nan ∈ ns) : n = .nan := by
  cases ns with
  | nil => cases hnan
  | cons m ns => exact foldlM_eq_nan div_spreads h ((List.mem_cons.mp hnan).imp_left Eq.symm)

theorem mean_eq_nan {n : Number} {ns : List Number} (h : mean ns = some n) (hnan : .nan ∈ ns) :
    n = .nan := by
  unfold mean at h
  split at h
  · exact (Option.some.inj h).symm
  · obtain ⟨total, htotal, h⟩ := Option.bind_eq_some_iff.mp h
    exact ratio_spreads h (Or.inl (sum_eq_nan htotal hnan))

theorem containsNaN_of_mem {found : Bool} {ns : List Number} (h : containsNaN ns = some found)
    (hnan : .nan ∈ ns) : found = true := by
  -- The search stops at the first `nan`, which does not come behind the given one.
  induction ns with
  | nil => cases hnan
  | cons m ns ih =>
    obtain ⟨x, hx, h⟩ := Option.bind_eq_some_iff.mp h
    split at h
    · exact (Option.some.inj h).symm
    · rename_i hx'
      -- The search goes on, since `m` is no `nan`.
      rcases List.mem_cons.mp hnan with rfl | hmem
      · cases hx
        exact absurd rfl hx'
      · exact ih h hmem

theorem extremum_eq_nan {wanted : Ordering} {empty n : Number} {ns : List Number}
    (h : extremum wanted empty ns = some n) (hnan : .nan ∈ ns) : n = .nan := by
  obtain ⟨found, hfound, h⟩ := Option.bind_eq_some_iff.mp h
  rw [containsNaN_of_mem hfound hnan] at h
  exact (Option.some.inj h).symm

end Number

end Spreadsheet
