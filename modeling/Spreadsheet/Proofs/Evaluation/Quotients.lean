import Spreadsheet.Proofs.Evaluation.Extrema

/-!
# Quotients from the left

The first argument is divided by all others in turn. A zero divides as the zeros of doubles do: what is
no zero becomes infinite, with the sign of both. From the first division on every result is a double, so
that only the first argument can be a whole number without a nearest double. If it is one, it can still
be divided by other whole numbers, but not by a zero.
-/

namespace Spreadsheet

namespace Number

variable {a b : Number}

def isNegative : Number → Bool
  | .integer n => n < 0
  | .double x => x.isNegative

def divided? (a b : Number) : Option Number :=
  if b.isZero then
    some (if a.isZero || a.isNaN then nan else .double (.infinity (a.isNegative ^^ b.isNegative)))
  else ratio a b

theorem isNegative_of_toDouble? {x : Double} (h : a.toDouble? = some x) :
    x.isNegative = a.isNegative := by
  cases a with
  | integer n =>
    obtain ⟨m, rfl⟩ := Double.exists_finite_of_ofInt? h
    rfl
  | double y =>
    cases h
    rfl

theorem hasDouble_of_isZero (h : a.isZero = true) : a.HasDouble := by
  cases a with
  | integer n =>
    obtain rfl : n = 0 := of_decide_eq_true h
    exact hasDouble_iff.mpr ⟨_, Double.ofInt?_zero⟩
  | double x => exact trivial

theorem overZero_of_hasDouble (ha : a.HasDouble) (hb : b.isZero = true) :
    overZero a b =
      some (if a.isZero || a.isNaN then nan else .double (.infinity (a.isNegative ^^ b.isNegative))) := by
  obtain ⟨x, hx⟩ := hasDouble_iff.mp ha
  obtain ⟨y, hy⟩ := hasDouble_iff.mp (hasDouble_of_isZero hb)
  unfold overZero
  rw [hx, hy, ← isNaN_of_toDouble? hx, ← isNegative_of_toDouble? hx, ← isNegative_of_toDouble? hy]
  simp only [Option.bind_eq_bind, Option.bind_some]
  split <;> rfl

theorem div_eq_divided? (h : a.HasDouble ∨ b.isZero = false) : div a b = divided? a b := by
  unfold div divided?
  by_cases hb : b.isZero = true
  · have ha : a.HasDouble := h.resolve_right (by simp [hb])
    rw [if_pos hb, if_pos hb, overZero_of_hasDouble ha hb]
  · rw [if_neg hb, if_neg hb]

theorem div_eq_none (ha : ¬ a.HasDouble) (hb : b.isZero = true) : div a b = none := by
  unfold div overZero
  rw [if_pos hb, toDouble?_eq_none_iff.mpr ha]
  rfl

theorem exists_double_of_ratio {c : Number} (h : ratio a b = some c) : ∃ x, c = .double x := by
  have hdoubles : ∀ {op : Double → Double → Double}, onDoubles op a b = some c →
      ∃ x, c = .double x := by
    intro op hop
    obtain ⟨x, -, hop⟩ := Option.bind_eq_some_iff.mp hop
    obtain ⟨y, -, hop⟩ := Option.bind_eq_some_iff.mp hop
    exact ⟨op x y, (Option.some.inj hop).symm⟩
  cases a with
  | integer m =>
    cases b with
    | integer n =>
      have hratio : (Double.ofRatio? m n).map Number.double = some c := h
      obtain ⟨x, -, rfl⟩ := Option.map_eq_some_iff.mp hratio
      exact ⟨x, rfl⟩
    | double y => exact hdoubles h
  | double x => exact hdoubles h

/-- Every quotient is a double, also that of whole numbers. -/
theorem exists_double_of_divided? {c : Number} (h : divided? a b = some c) : ∃ x, c = .double x := by
  unfold divided? at h
  split at h
  · split at h
    · exact ⟨_, (Option.some.inj h).symm⟩
    · exact ⟨_, (Option.some.inj h).symm⟩
  · exact exists_double_of_ratio h

/-! ## Many divisors -/

theorem foldlM_div_double (x : Double) (ns : List Number) :
    ns.foldlM div (.double x) = ns.foldlM divided? (.double x) := by
  -- Along the divisors, where every quotient is a double again.
  induction ns generalizing x with
  | nil => rfl
  | cons n ns ih =>
    rw [List.foldlM_cons, List.foldlM_cons, div_eq_divided? (.inl (hasDouble_double x))]
    cases hstep : divided? (.double x) n with
    | none => rfl
    | some c =>
      obtain ⟨y, rfl⟩ := exists_double_of_divided? hstep
      exact ih y

theorem quotient_eq_foldlM {n : Number} {ns : List Number}
    (h : n.HasDouble ∨ ∀ z ∈ ns.head?, z.isZero = false) :
    quotient (n :: ns) = ns.foldlM divided? n := by
  show ns.foldlM div n = ns.foldlM divided? n
  cases ns with
  | nil => rfl
  | cons z ns =>
    rw [List.foldlM_cons, List.foldlM_cons, div_eq_divided? (h.imp_right fun hz => hz z rfl)]
    cases hstep : divided? n z with
    | none => rfl
    | some c =>
      obtain ⟨x, rfl⟩ := exists_double_of_divided? hstep
      exact foldlM_div_double x ns

theorem quotient_eq_none {n z : Number} {ns : List Number} (hn : ¬ n.HasDouble)
    (hz : z.isZero = true) : quotient (n :: z :: ns) = none := by
  show (z :: ns).foldlM div n = none
  rw [List.foldlM_cons, div_eq_none hn hz]
  rfl

end Number

namespace Grid

/-- Arguments that come to numbers are divided from the left, and the result is `nan` where a division
has no result. Only a first number without a nearest double cannot be divided by a zero next to it, and
then all of it is `nan`. -/
theorem evaluate_quotient (g : Grid) {depth : Int} (hdepth : depth ≤ maxDepth) {args : List Content}
    {n : Number} {ns : List Number}
    (hvalues : args.map (g.resolve (depth + 1)) = (n :: ns).map Content.number) :
    ((n.HasDouble ∨ ∀ z ∈ ns.head?, z.isZero = false) →
      g.evaluate depth (.call (.aggregate .divide) args) =
        Aggregate.outcome (ns.foldlM Number.divided? n)) ∧
    (¬ n.HasDouble → (∃ z ∈ ns.head?, z.isZero = true) →
      g.evaluate depth (.call (.aggregate .divide) args) = .nan) := by
  have hcompute : g.evaluate depth (.call (.aggregate .divide) args) =
      Aggregate.outcome (Number.quotient (n :: ns)) := by
    rw [evaluate_aggregate hdepth, hvalues]
    show Aggregate.outcome (Number.quotient (((n :: ns).map Content.number).map Content.operand)) = _
    rw [Content.map_operand_number]
  constructor
  · intro h
    rw [hcompute, Number.quotient_eq_foldlM h]
  · rintro hn ⟨z, hz, hzero⟩
    obtain ⟨ms, rfl⟩ := List.head?_eq_some_iff.mp hz
    -- The sign of the infinity comes from the dividend as a double, and there is none.
    rw [hcompute, Number.quotient_eq_none hn hzero]
    rfl

/-- The first number has no nearest double, but the quotient -1 of it and the next one has, and the two
zeros behind it divide it to one infinity and then to the other. -/
theorem evaluate_quotient_zeros :
    (single (.integer 0)).evaluate (-3) (.call (.aggregate .divide)
      [.integer (tenPow 309), .integer (-tenPow 309), .text "A$1", .number (.double (.zero true))]) =
        .number (.double (.infinity false)) := by
  have hdepth : (-3 : Int) ≤ maxDepth := by decide
  have hvalues : [Content.integer (tenPow 309), .integer (-tenPow 309), .text "A$1",
      .number (.double (.zero true))].map ((single (.integer 0)).resolve (-3 + 1)) =
      [Number.integer (tenPow 309), .integer (-tenPow 309), .integer 0, .double (.zero true)].map
        Content.number := rfl
  have hvalue := (evaluate_quotient _ hdepth hvalues).1 (.inr (by decide +kernel))
  have hquotient : [Number.integer (-tenPow 309), .integer 0, .double (.zero true)].foldlM
      Number.divided? (.integer (tenPow 309)) = some (.double (.infinity false)) := by decide +kernel
  rw [hvalue, hquotient]
  rfl

/-- A number of 310 digits by 0 would be infinite, but there is no quotient. -/
theorem evaluate_quotient_beyond :
    ¬ ∀ (g : Grid) (depth : Int) (args : List Content) (n : Number) (ns : List Number),
      depth ≤ maxDepth → args.map (g.resolve (depth + 1)) = (n :: ns).map Content.number →
      g.evaluate depth (.call (.aggregate .divide) args) =
        Aggregate.outcome (ns.foldlM Number.divided? n) := by
  intro h
  have hclaimed := h ⟨[]⟩ 0 [.integer (tenPow 309), .integer 0] (.integer (tenPow 309)) [.integer 0]
    (by decide) rfl
  have hnone : Number.quotient [.integer (tenPow 309), .integer 0] = none :=
    Number.quotient_eq_none (by decide +kernel) rfl
  have hnan : (⟨[]⟩ : Grid).evaluate 0 (.call (.aggregate .divide)
      [.integer (tenPow 309), .integer 0]) = Aggregate.outcome
        (Number.quotient [.integer (tenPow 309), .integer 0]) :=
    evaluate_aggregate (by decide) .divide _
  have hinfinite : [Number.integer 0].foldlM Number.divided? (.integer (tenPow 309)) =
      some (.double (.infinity false)) := by decide +kernel
  rw [hnan, hnone, hinfinite] at hclaimed
  have heq : Number.nan = .double (.infinity false) := Content.number.inj hclaimed
  exact absurd heq (by decide)

end Grid

end Spreadsheet
