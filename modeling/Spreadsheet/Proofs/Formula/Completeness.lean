import Spreadsheet.Proofs.Formula.Soundness

/-!
# What is derived is read

The derivation of a row of lexemes is followed by the readers, whatever comes behind it, as long as
that does not go on with it. Every parenthesis and every minus sign on the way takes frames off those
that are left, so the frames in use go along with the derivation.
-/

namespace Spreadsheet

open Text

namespace Grammar

/-! ## Frames in use -/

namespace Place

theorem after_append (p : Place) (ls ms : List Lexeme) :
    p.after (ls ++ ms) = (p.after ls).after ms :=
  List.foldl_append

theorem frames_le_most (p : Place) (ls : List Lexeme) : p.frames ≤ p.most ls := by
  cases ls with
  | nil => exact Nat.le_refl _
  | cons l ls => exact Nat.le_max_left _ _

theorem most_append (p : Place) (ls ms : List Lexeme) :
    p.most (ls ++ ms) = max (p.most ls) ((p.after ls).most ms) := by
  -- Each lexeme moves the place on by one, and the rows behind it are compared from there.
  induction ls generalizing p with
  | nil => exact (Nat.max_eq_right (p.frames_le_most ms)).symm
  | cons l ls ih =>
    show max p.frames ((p.behind l).most (ls ++ ms)) = max (max p.frames _) _
    rw [ih, Nat.max_assoc]
    rfl

end Place

/-- Whether a row of lexemes, put where an operand is missing, leaves it read and all parentheses open
that were open before. -/
def Closes (ls : List Lexeme) : Prop :=
  ∀ outer base signs, ∃ signs',
    (⟨outer, base, signs, false⟩ : Place).after ls = ⟨outer, base, signs', true⟩

def Lexeme.Joins (l : Lexeme) : Prop :=
  ∀ outer base signs, (⟨outer, base, signs, true⟩ : Place).behind l = ⟨outer, base, 0, false⟩

theorem joins_operator (op : Operator) : Lexeme.Joins (.operator op) := by
  intro outer base signs
  cases op with
  | arithmetic op => cases op <;> rfl
  | comparison op => rfl

theorem joins_comma : Lexeme.Joins .comma :=
  fun _ _ _ => rfl

namespace Closes

variable {ls ms : List Lexeme}

theorem joined {l : Lexeme} (hls : Closes ls) (hl : Lexeme.Joins l) (hms : Closes ms) :
    Closes (ls ++ l :: ms) := by
  intro outer base signs
  obtain ⟨signs', h⟩ := hls outer base signs
  rw [Place.after_append, h]
  show ∃ signs, (Place.behind _ l).after ms = _
  rw [hl outer base signs']
  exact hms outer base 0

theorem minus (h : Closes ls) : Closes (.operator (.arithmetic .subtract) :: ls) :=
  fun outer base signs => h outer base (signs + 1)

/-- The parenthesis at the end brings back what was in use in front of the one at the start. -/
theorem parenthesized {outer : List Nat} {base frames : Nat} (h : Closes ls) :
    (⟨base :: outer, frames, 0, false⟩ : Place).after (ls ++ [.rightParen]) =
      ⟨outer, base, 0, true⟩ := by
  obtain ⟨signs, h⟩ := h (base :: outer) frames 0
  rw [Place.after_append, h]
  rfl

theorem group (h : Closes ls) : Closes (.leftParen :: ls ++ [.rightParen]) :=
  fun _ _ _ => ⟨0, h.parenthesized⟩

theorem call (name : String) (h : Closes ls) :
    Closes (.identifier name :: .leftParen :: ls ++ [.rightParen]) :=
  fun _ _ _ => ⟨0, h.parenthesized⟩

end Closes

mutual

theorem Comparative.closes {ls : List Lexeme} {v : Content} : Comparative ls v → Closes ls
  | .single h => h.closes
  | .pair op ha hb _ _ => ha.closes.joined (joins_operator _) hb.closes

theorem Additive.closes {ls : List Lexeme} {v : Content} : Additive ls v → Closes ls
  | .single h => h.closes
  | .step op _ ha hb => ha.closes.joined (joins_operator _) hb.closes

theorem Multiplicative.closes {ls : List Lexeme} {v : Content} : Multiplicative ls v → Closes ls
  | .single h => h.closes
  | .step op _ ha hb => ha.closes.joined (joins_operator _) hb.closes

theorem Unary.closes {ls : List Lexeme} {v : Content} : Unary ls v → Closes ls
  | .atom h => h.closes
  | .negative h => h.closes.minus
  | .minus h _ => h.closes.minus

theorem Atom.closes {ls : List Lexeme} {v : Content} : Atom ls v → Closes ls
  | .number _ => fun _ _ signs => ⟨signs, rfl⟩
  | .string _ => fun _ _ signs => ⟨signs, rfl⟩
  | .boolean _ => fun _ _ signs => ⟨signs, rfl⟩
  | .name _ => fun _ _ signs => ⟨signs, rfl⟩
  | .group h => h.closes.group
  | .call _ .none => fun _ _ _ => ⟨0, rfl⟩
  | .call _ (.some h) => h.closes.call _

theorem Items.closes {ls : List Lexeme} {vs : List Content} : Items ls vs → Closes ls
  | .last h => h.closes
  | .more h hs => h.closes.joined joins_comma hs.closes

end

/-! ## Frames that are left -/

/-- Whether an operand at a place can be read with so many frames left, and all behind it with what is
left there. An atom takes two, and one is for what it calls. -/
def Room (p : Place) (left : Nat) (ts : List Token) : Prop :=
  p.most (lexemes ts) + 3 ≤ p.frames + left

namespace Room

variable {outer : List Nat} {base signs left : Nat} {ts : List Token}

theorem exists_atom {p : Place} (h : Room p left ts) : ∃ n, left = n + 3 := by
  have hmost := p.frames_le_most (lexemes ts)
  unfold Room at h
  exact ⟨left - 3, by omega⟩

/-- Behind an operator or a comma nothing is left in use of what has been read. -/
theorem behind {us : List Token} {t : Token} (h : Room ⟨outer, base, 0, false⟩ left (us ++ t :: ts))
    (hus : Closes (lexemes us)) (ht : Lexeme.Joins t.lexeme) : Room ⟨outer, base, 0, false⟩ left ts := by
  obtain ⟨signs, hafter⟩ := hus outer base 0
  have hmost : (⟨outer, base, signs, true⟩ : Place).most (t.lexeme :: lexemes ts) =
      max (base + signs) (Place.most ⟨outer, base, 0, false⟩ (lexemes ts)) := by
    rw [← ht outer base signs]
    rfl
  unfold Room at h ⊢
  rw [lexemes_append, Place.most_append, hafter, lexemes_cons, hmost] at h
  omega

/-- What is read at the next place takes frames off those that are left. -/
theorem taking {p q : Place} {frames : Nat} (h : q.most (lexemes ts) + 3 ≤ p.frames + left)
    (hframes : q.frames = p.frames + frames) : ∃ n, left = n + frames ∧ Room q n ts := by
  have hle := q.frames_le_most (lexemes ts)
  unfold Room
  exact ⟨left - frames, by omega, by omega⟩

theorem next {p : Place} {t : Token} (h : Room p left (t :: ts)) :
    (p.behind t.lexeme).most (lexemes ts) + 3 ≤ p.frames + left :=
  (Nat.add_le_add_right (Nat.le_max_right _ _) 3).trans h

/-- A minus sign takes one frame. -/
theorem sign {position : Nat}
    (h : Room ⟨outer, base, signs, false⟩ left (⟨.operator (.arithmetic .subtract), position⟩ :: ts)) :
    ∃ n, left = n + 3 ∧ Room ⟨outer, base, signs + 1, false⟩ (n + 2) ts := by
  have hframes : base + (signs + 1) = base + signs + 1 := rfl
  obtain ⟨k, hleft, hroom⟩ := taking h.next (q := ⟨outer, base, signs + 1, false⟩) hframes
  obtain ⟨n, rfl⟩ := hroom.exists_atom
  exact ⟨n + 1, hleft, hroom⟩

/-- Parentheses take seven frames, an operand and an atom outside and five levels inside them. -/
theorem group {n position : Nat}
    (h : Room ⟨outer, base, signs, false⟩ (n + 3) (⟨.leftParen, position⟩ :: ts)) :
    ∃ k, n + 1 = k + 5 ∧ Room ⟨base :: outer, base + signs + 7, 0, false⟩ k ts := by
  obtain ⟨k, hleft, hroom⟩ := taking h.next (q := ⟨base :: outer, base + signs + 7, 0, false⟩) rfl
  exact ⟨k, by omega, hroom⟩

/-- A call takes one frame more. -/
theorem call {n position position' : Nat} {name : String}
    (h : Room ⟨outer, base, signs, false⟩ (n + 3)
      (⟨.identifier name, position⟩ :: ⟨.leftParen, position'⟩ :: ts)) :
    ∃ k, n = k + 5 ∧ Room ⟨base :: outer, base + signs + 8, 0, false⟩ k ts := by
  have hname : Room ⟨outer, base, signs, true⟩ (n + 3) (⟨.leftParen, position'⟩ :: ts) := h.next
  obtain ⟨k, hleft, hroom⟩ := taking hname.next (q := ⟨base :: outer, base + signs + 8, 0, false⟩) rfl
  exact ⟨k, by omega, hroom⟩

end Room

end Grammar

namespace Formula

open Grammar

theorem asOperand_complete {v w : Content} (h : Operand v w) : asOperand v = .ok w := by
  cases h with
  | tree name args => rfl
  | truth value => simp only [asOperand, ofBooleanWord?_booleanWord]
  | @reference s href =>
    -- Neither truth value is spelled like a reference.
    have hword : ofBooleanWord? s = none := by
      rw [ofBooleanWord?_eq_none_iff]
      rintro (_ | _) rfl
      · exact absurd href (by decide)
      · exact absurd href (by decide)
    simp only [asOperand, hword, href, Bool.true_or, if_true]
  | @quoted s hquoted =>
    have hword : ofBooleanWord? s = none := by
      rw [ofBooleanWord?_eq_none_iff]
      rintro (_ | _) rfl
      · exact absurd hquoted (by decide)
      · exact absurd hquoted (by decide)
    simp only [asOperand, hword, hquoted, Bool.or_true, if_true]
  | value hformula htext =>
    cases v with
    | text s => exact absurd rfl (htext s)
    | formula name args => cases hformula
    | _ => rfl

/-! ## What goes on with a row of lexemes -/

def opensCall : Lexeme → Bool
  | .leftParen => true
  | _ => false

def extendsChain (level : Arithmetic → Bool) : Lexeme → Bool
  | .operator (.arithmetic op) => level op
  | l => opensCall l

def extendsExpression : Lexeme → Bool
  | .operator _ => true
  | l => opensCall l

def Stops (kind : Lexeme → Bool) (ts : List Token) : Prop :=
  ∀ t ∈ ts.head?, kind t.lexeme = false

theorem Stops.imp {kind kind' : Lexeme → Bool} {ts : List Token} (h : Stops kind ts)
    (himp : ∀ l, kind' l = true → kind l = true) : Stops kind' ts := by
  intro t ht
  cases hkind : kind' t.lexeme with
  | false => rfl
  | true =>
    have hfalse := h t ht
    rw [himp _ hkind] at hfalse
    cases hfalse

theorem Stops.chain {level level' : Arithmetic → Bool} {ts : List Token}
    (h : Stops (extendsChain level) ts) (himp : ∀ op, level' op = true → level op = true) :
    Stops (extendsChain level') ts := by
  refine h.imp fun l hl => ?_
  cases l with
  | operator op =>
    cases op with
    | arithmetic op => exact himp op hl
    | comparison op => exact hl
  | _ => exact hl

theorem Stops.opensCall {level : Arithmetic → Bool} {ts : List Token}
    (h : Stops (extendsChain level) ts) : Stops opensCall ts := by
  refine h.imp fun l hl => ?_
  cases l with
  | operator op => cases hl
  | _ => exact hl

/-! ## Chains and signs -/

theorem chainFrom_of_stops {level : Arithmetic → Bool} {operand : Reader Content} (n : Nat)
    (left : Content) {ts : List Token} (hstops : Stops (extendsChain level) ts) :
    chainFrom level operand n left ts = .ok (left, ts) := by
  cases n with
  | zero => rfl
  | succ n =>
    cases ts with
    | nil => rfl
    | cons t ts =>
      have ht : extendsChain level t.lexeme = false := hstops t (by simp)
      simp only [chainFrom]
      split
      · rename_i op hop
        rw [hop] at ht
        rw [if_neg (by simpa [extendsChain] using ht)]
      · rfl

/-- A bound beyond the number of tokens makes no difference. -/
theorem chainFrom_eq_of_length_le {level : Arithmetic → Bool} {operand : Reader Content}
    {P : List Lexeme → Content → Prop} (hoperand : Sound operand P) {n : Nat} (left : Content)
    {ts : List Token} (hn : ts.length ≤ n) :
    chainFrom level operand n left ts = chainFrom level operand ts.length left ts := by
  -- The operand may take off any number of tokens, so both bounds are compared at all smaller ones.
  induction n using Nat.strong_induction_on generalizing left ts with
  | h n ih =>
    cases ts with
    | nil => cases n <;> rfl
    | cons t ts =>
      obtain ⟨n, rfl⟩ : ∃ m, n = m + 1 := ⟨n - 1, by simp only [List.length_cons] at hn; omega⟩
      simp only [List.length_cons] at hn ⊢
      simp only [chainFrom]
      split
      · split
        · cases hright : operand ts with
          | error e => rfl
          | ok found =>
            obtain ⟨right, rest⟩ := found
            have hle := hoperand.length_le hright
            show chainFrom level operand n _ rest = chainFrom level operand ts.length _ rest
            rw [ih n (by omega) _ (by omega)]
            -- With `n` equal to the number of tokens there is nothing left to compare.
            by_cases hlt : ts.length < n + 1
            · exact (ih ts.length hlt _ hle).symm
            · omega
        · rfl
      · rfl

theorem chain_step {level : Arithmetic → Bool} {operand : Reader Content}
    {P : List Lexeme → Content → Prop} (hoperand : Sound operand P) {op : Arithmetic}
    (hlevel : level op = true) {ts us rest : List Token} {position : Nat} {a b : Content}
    (hleft : chain level operand (ts ++ ⟨.operator (.arithmetic op), position⟩ :: (us ++ rest)) =
      chainFrom level operand (us.length + rest.length + 1) a
        (⟨.operator (.arithmetic op), position⟩ :: (us ++ rest)))
    (hright : operand (us ++ rest) = .ok (b, rest)) :
    chain level operand (ts ++ ⟨.operator (.arithmetic op), position⟩ :: (us ++ rest)) =
      chainFrom level operand rest.length (.call (.aggregate op.function) [a, b]) rest := by
  rw [hleft, chainFrom_operator hlevel hright]
  -- The bound left over counts the tokens of the operand, which are gone.
  have hn : rest.length ≤ us.length + rest.length := Nat.le_add_left _ _
  exact chainFrom_eq_of_length_le hoperand _ hn

theorem signed_eq_atom {operand atom : Reader Content} {ts : List Token}
    (hhead : ∀ t ∈ ts.head?, t.lexeme ≠ .operator (.arithmetic .subtract)) :
    signed operand atom ts = atom ts := by
  unfold signed
  split
  · rename_i rest hminus
    obtain ⟨position, rfl⟩ := behindMinus?_eq_some_iff.mp hminus
    exact absurd rfl (hhead _ rfl)
  · rfl

/-! ## Expressions -/

abbrev productReader (left : Nat) : Reader Content :=
  chain Arithmetic.isMultiplicative (operand left)

abbrev sumReader (left : Nat) : Reader Content :=
  chain Arithmetic.isAdditive (productReader left)

theorem productReader_sound (left : Nat) : Sound (productReader left) Multiplicative :=
  chain_sound (readers_sound left).2 .single fun hlevel ha hb => .step _ hlevel ha hb

theorem arguments_last {expr : Reader Content} {n : Nat} {ts rest : List Token} {position : Nat}
    {v : Content} (h : expr (ts ++ ⟨.rightParen, position⟩ :: rest) =
      .ok (v, ⟨.rightParen, position⟩ :: rest)) :
    arguments expr (n + 1) (ts ++ ⟨.rightParen, position⟩ :: rest) = .ok ([v], rest) := by
  unfold arguments
  rw [h]
  rfl

theorem arguments_more {expr : Reader Content} {n : Nat} {ts us rest : List Token}
    {position : Nat} {v : Content} {vs : List Content}
    (h : expr (ts ++ ⟨.comma, position⟩ :: us) = .ok (v, ⟨.comma, position⟩ :: us))
    (hmore : arguments expr n us = .ok (vs, rest)) :
    arguments expr (n + 1) (ts ++ ⟨.comma, position⟩ :: us) = .ok (v :: vs, rest) := by
  unfold arguments
  rw [h]
  show (arguments expr n us >>= fun found => Except.ok (v :: found.1, found.2)) = _
  rw [hmore]
  rfl

theorem comparison_pair {sum : Reader Content} {ts us rest : List Token} {position : Nat}
    {op : Comparison} {a b a' b' : Content}
    (ha : sum (ts ++ ⟨.operator (.comparison op), position⟩ :: (us ++ rest)) =
      .ok (a, ⟨.operator (.comparison op), position⟩ :: (us ++ rest)))
    (hb : sum (us ++ rest) = .ok (b, rest)) (ha' : Operand a a') (hb' : Operand b b')
    (hstops : Stops extendsExpression rest) :
    comparison sum (ts ++ ⟨.operator (.comparison op), position⟩ :: (us ++ rest)) =
      .ok (.call (.comparison op) [a', b'], rest) := by
  -- A second comparison operator would be refused, and none follows.
  have hlast : checkNotChained rest = .ok () := by
    unfold checkNotChained
    split
    · cases hstops _ rfl
    · rfl
  unfold comparison
  rw [ha]
  show (sum (us ++ rest) >>= _) = _
  rw [hb]
  show (asOperand a >>= _) = _
  rw [asOperand_complete ha']
  show (asOperand b >>= _) = _
  rw [asOperand_complete hb']
  show (checkNotChained rest >>= _) = _
  rw [hlast]
  rfl

theorem comparison_single {sum : Reader Content} {ts rest : List Token} {v : Content}
    (h : sum ts = .ok (v, rest)) (hstops : Stops extendsExpression rest) :
    comparison sum ts = .ok (v, rest) := by
  have hnone : comparison? rest = none := by
    unfold comparison?
    split
    · cases hstops _ rfl
    · rfl
  unfold comparison
  rw [h]
  simp only [bind, Except.bind, hnone]
  rfl

theorem chain_of_operand {level : Arithmetic → Bool} {operand : Reader Content}
    {ts rest : List Token} {v : Content} (h : operand ts = .ok (v, rest)) :
    chain level operand ts = chainFrom level operand rest.length v rest := by
  unfold chain
  rw [h]
  rfl

theorem levels_eq_error {operand : Reader Content} {ts : List Token} {e : ParseError}
    (h : operand ts = .error e) : levels operand ts = .error e := by
  simp only [levels, comparison, chain, bind, Except.bind, h]

theorem expression_rightParen (left position : Nat) (ts : List Token) :
    ∃ e, expression left (⟨.rightParen, position⟩ :: ts) = .error e := by
  let refuses (r : Reader Content) : Prop :=
    ∃ e, r (⟨.rightParen, position⟩ :: ts) = .error e
  exact (readers_induct (P := refuses) (Q := refuses) ⟨_, rfl⟩ ⟨_, rfl⟩
    (fun _ h => h.imp fun _ => levels_eq_error) (fun _ _ _ _ _ _ => ⟨_, rfl⟩) left).1

theorem call_some {left : Nat} {name : String} {f : Function} {ts rest : List Token}
    {args : List Content} (hname : functionNamed? name = some f)
    (h : arguments (expression left) (ts.length + 1) ts = .ok (args, rest)) :
    call (expression left) name ts = .ok (.call f args, rest) := by
  -- At a closing parenthesis no argument could have been read.
  have hts : ∀ t ∈ ts.head?, t.lexeme ≠ .rightParen := by
    intro t ht heq
    obtain ⟨l, position⟩ := t
    obtain ⟨ts, rfl⟩ := List.head?_eq_some_iff.mp ht
    dsimp only at heq
    subst heq
    obtain ⟨e, he⟩ := expression_rightParen left position ts
    unfold arguments at h
    rw [he] at h
    cases h
  rw [call_eq_arguments hname hts, h]
  rfl

end Formula

namespace Grammar

open Formula

theorem extendsExpression_of_extendsChain (l : Lexeme)
    (h : extendsChain (fun _ => true) l = true) : extendsExpression l = true := by
  cases l with
  | operator op => rfl
  | _ => exact h

theorem negated_of_isNumber_eq_false {v : Content} (h : v.isNumber = false) :
    negated v = .call (.aggregate .multiply) [.integer (-1), v] := by
  cases v with
  | number n => cases h
  | _ => rfl

theorem Atom.head_ne_minus {ts : List Token} {v : Content} (h : Atom (lexemes ts) v)
    (rest : List Token) :
    ∀ t ∈ (ts ++ rest).head?, t.lexeme ≠ .operator (.arithmetic .subtract) := by
  cases ts with
  | nil => cases h
  | cons t ts =>
    rintro _ ⟨⟩ ht
    rw [lexemes_cons, ht] at h
    cases h

mutual

theorem Comparative.reads {ls : List Lexeme} {v : Content} :
    Comparative ls v → ∀ ⦃outer : List Nat⦄ ⦃base left : Nat⦄ ⦃ts rest : List Token⦄,
      lexemes ts = ls → Room ⟨outer, base, 0, false⟩ left (ts ++ rest) →
      Stops extendsExpression rest → expression (left + 5) (ts ++ rest) = .ok (v, rest)
  | .single h => by
    intro outer base left ts rest hts hroom hstops
    -- What stops an expression stops the chains inside it.
    have hchain : Stops (extendsChain fun _ => true) rest :=
      hstops.imp extendsExpression_of_extendsChain
    refine comparison_single ?_ hstops
    show sumReader left (ts ++ rest) = _
    rw [h.chained hts hroom (hchain.chain fun _ _ => rfl)]
    exact chainFrom_of_stops _ _ (hchain.chain fun _ _ => rfl)
  | .pair op ha hb ha' hb' => by
    intro outer base left ts rest hts hroom hstops
    obtain ⟨us, position, ws, rfl, hus, hws⟩ := lexemes_eq_append_cons hts
    simp only [List.append_assoc, List.cons_append] at hroom ⊢
    have hchain : Stops (extendsChain fun _ => true) rest :=
      hstops.imp extendsExpression_of_extendsChain
    have hroom' : Room ⟨outer, base, 0, false⟩ left (ws ++ rest) :=
      hroom.behind (hus ▸ ha.closes) (joins_operator _)
    refine comparison_pair ?_ ?_ ha' hb' hstops
    · -- The sum on the left is stopped by the comparison operator.
      show sumReader left _ = _
      rw [ha.chained hus hroom (by intro t ht; cases ht; rfl)]
      exact chainFrom_of_stops _ _ (by intro t ht; cases ht; rfl)
    · show sumReader left _ = _
      rw [hb.chained hws hroom' (hchain.chain fun _ _ => rfl)]
      exact chainFrom_of_stops _ _ (hchain.chain fun _ _ => rfl)

/-- A chain is read up to its last operand with the rest of the row still open, so that an operator
behind it may go on. -/
theorem Additive.chained {ls : List Lexeme} {v : Content} :
    Additive ls v → ∀ ⦃outer : List Nat⦄ ⦃base left : Nat⦄ ⦃ts rest : List Token⦄,
      lexemes ts = ls → Room ⟨outer, base, 0, false⟩ left (ts ++ rest) →
      Stops (extendsChain Arithmetic.isMultiplicative) rest →
      sumReader left (ts ++ rest) =
        chainFrom Arithmetic.isAdditive (productReader left) rest.length v rest
  | .single h => by
    intro outer base left ts rest hts hroom hstops
    apply chain_of_operand
    rw [h.chained hts hroom hstops.opensCall]
    exact chainFrom_of_stops _ _ hstops
  | .step op hop ha hb => by
    intro outer base left ts rest hts hroom hstops
    obtain ⟨us, position, ws, rfl, hus, hws⟩ := lexemes_eq_append_cons hts
    simp only [List.append_assoc, List.cons_append] at hroom ⊢
    have hroom' : Room ⟨outer, base, 0, false⟩ left (ws ++ rest) :=
      hroom.behind (hus ▸ ha.closes) (joins_operator _)
    -- The chain before the operator is read first, and leaves the operator and all behind it.
    refine chain_step (productReader_sound left) hop ?_ ?_
    · show sumReader left _ = _
      rw [ha.chained hus hroom]
      · simp
      · -- An operator between products does not go on with the product before it.
        intro t ht
        cases ht
        simp [extendsChain, Arithmetic.isMultiplicative, hop]
    · rw [hb.chained hws hroom' hstops.opensCall]
      exact chainFrom_of_stops _ _ hstops

theorem Multiplicative.chained {ls : List Lexeme} {v : Content} :
    Multiplicative ls v → ∀ ⦃outer : List Nat⦄ ⦃base left : Nat⦄ ⦃ts rest : List Token⦄,
      lexemes ts = ls → Room ⟨outer, base, 0, false⟩ left (ts ++ rest) → Stops opensCall rest →
      productReader left (ts ++ rest) =
        chainFrom Arithmetic.isMultiplicative (operand left) rest.length v rest
  | .single h => by
    intro outer base left ts rest hts hroom hstops
    exact chain_of_operand (h.reads hts hroom hstops)
  | .step op hop ha hb => by
    intro outer base left ts rest hts hroom hstops
    obtain ⟨us, position, ws, rfl, hus, hws⟩ := lexemes_eq_append_cons hts
    simp only [List.append_assoc, List.cons_append] at hroom ⊢
    have hroom' : Room ⟨outer, base, 0, false⟩ left (ws ++ rest) :=
      hroom.behind (hus ▸ ha.closes) (joins_operator _)
    -- The chain is read from the left, so the induction is on everything before the last operator.
    refine chain_step (readers_sound left).2 hop ?_ (hb.reads hws hroom' hstops)
    show productReader left _ = _
    rw [ha.chained hus hroom]
    · simp
    · intro t ht
      cases ht
      rfl

/-- Only here minus signs may stand in front, and each of them leaves one frame less. -/
theorem Unary.reads {ls : List Lexeme} {v : Content} :
    Unary ls v → ∀ ⦃outer : List Nat⦄ ⦃base signs left : Nat⦄ ⦃ts rest : List Token⦄,
      lexemes ts = ls → Room ⟨outer, base, signs, false⟩ left (ts ++ rest) → Stops opensCall rest →
      operand left (ts ++ rest) = .ok (v, rest)
  | .atom h => by
    intro outer base signs left ts rest hts hroom hstops
    -- A sign passes the room on with one frame less, and an atom finds the three that it needs.
    obtain ⟨n, rfl⟩ := hroom.exists_atom
    refine (signed_eq_atom ?_).trans (h.reads hts hroom hstops)
    rw [← hts] at h
    exact h.head_ne_minus rest
  | .negative h => by
    intro outer base signs left ts rest hts hroom hstops
    obtain ⟨⟨l, position⟩, ts, rfl, rfl, hts'⟩ := lexemes_eq_cons hts
    obtain ⟨n, rfl, hroom'⟩ := Room.sign hroom
    exact signed_minus (h.reads hts' hroom' hstops)
  | .minus h hv => by
    intro outer base signs left ts rest hts hroom hstops
    obtain ⟨⟨l, position⟩, ts, rfl, rfl, hts'⟩ := lexemes_eq_cons hts
    obtain ⟨n, rfl, hroom'⟩ := Room.sign hroom
    rw [← negated_of_isNumber_eq_false hv]
    exact signed_minus (h.reads hts' hroom' hstops)

theorem Atom.reads {ls : List Lexeme} {v : Content} :
    Atom ls v → ∀ ⦃outer : List Nat⦄ ⦃base signs n : Nat⦄ ⦃ts rest : List Token⦄,
      lexemes ts = ls → Room ⟨outer, base, signs, false⟩ (n + 3) (ts ++ rest) →
      Stops opensCall rest → atom (expression (n + 1)) (expression n) (ts ++ rest) = .ok (v, rest)
  | .number hn => by
    intro outer base signs n ts rest hts hroom hstops
    obtain ⟨position, rfl⟩ := lexemes_eq_singleton hts
    simp only [List.cons_append, List.nil_append, atom, hn]
  | .string spelling => by
    intro outer base signs n ts rest hts hroom hstops
    obtain ⟨position, rfl⟩ := lexemes_eq_singleton hts
    rfl
  | .boolean value => by
    intro outer base signs n ts rest hts hroom hstops
    obtain ⟨position, rfl⟩ := lexemes_eq_singleton hts
    rfl
  | .name name => by
    intro outer base signs n ts rest hts hroom hstops
    obtain ⟨position, rfl⟩ := lexemes_eq_singleton hts
    simp only [List.cons_append, List.nil_append, atom]
    -- A parenthesis would make a call of the name.
    split
    · cases hstops _ rfl
    · rfl
  | .group h => by
    intro outer base signs n ts rest hts hroom hstops
    obtain ⟨us, position', ws, rfl, hus, hws⟩ := lexemes_eq_append_cons hts
    obtain ⟨⟨l, position⟩, us, rfl, rfl, hus'⟩ := lexemes_eq_cons hus
    obtain rfl := List.map_eq_nil_iff.mp hws
    simp only [List.cons_append, List.append_assoc, List.nil_append] at hroom ⊢
    obtain ⟨k, hk, hinner⟩ := Room.group hroom
    have hread := h.reads hus' hinner (by intro t ht; cases ht; rfl)
    rw [← hk] at hread
    simp only [atom]
    rw [hread]
    rfl
  | .call hname h => by
    intro outer base signs n ts rest hts hroom hstops
    obtain ⟨us, position'', ws, rfl, hus, hws⟩ := lexemes_eq_append_cons hts
    obtain ⟨⟨l, position⟩, us, rfl, rfl, hus'⟩ := lexemes_eq_cons hus
    obtain ⟨⟨l, position'⟩, us, rfl, rfl, hus''⟩ := lexemes_eq_cons hus'
    obtain rfl := List.map_eq_nil_iff.mp hws
    simp only [List.cons_append, List.append_assoc, List.nil_append] at hroom ⊢
    obtain ⟨k, rfl, hinner⟩ := Room.call hroom
    exact h.reads hus'' hinner (functionNamed?_eq_some_iff.mpr hname)

theorem Arguments.reads {ls : List Lexeme} {args : List Content} :
    Arguments ls args → ∀ ⦃outer : List Nat⦄ ⦃base left position : Nat⦄ ⦃ts rest : List Token⦄
      ⦃name : String⦄ ⦃f : Function⦄, lexemes ts = ls →
      Room ⟨outer, base, 0, false⟩ left (ts ++ ⟨.rightParen, position⟩ :: rest) →
      functionNamed? name = some f →
      call (expression (left + 5)) name (ts ++ ⟨.rightParen, position⟩ :: rest) =
        .ok (.call f args, rest)
  | .none => by
    intro outer base left position ts rest name f hts hroom hname
    obtain rfl := List.map_eq_nil_iff.mp hts
    exact call_eq_nil hname position rest
  | .some h => by
    intro outer base left position ts rest name f hts hroom hname
    -- Each argument takes a token at least, so there are rounds enough for all of them.
    refine call_some hname (h.reads hts hroom ?_)
    rw [← hts, List.length_append]
    simp only [lexemes, List.length_map]
    omega

theorem Items.reads {ls : List Lexeme} {args : List Content} :
    Items ls args → ∀ ⦃outer : List Nat⦄ ⦃base left position n : Nat⦄ ⦃ts rest : List Token⦄,
      lexemes ts = ls →
      Room ⟨outer, base, 0, false⟩ left (ts ++ ⟨.rightParen, position⟩ :: rest) → ls.length < n →
      arguments (expression (left + 5)) n (ts ++ ⟨.rightParen, position⟩ :: rest) =
        .ok (args, rest)
  | .last h => by
    intro outer base left position n ts rest hts hroom hn
    obtain ⟨n, rfl⟩ : ∃ m, n = m + 1 := ⟨n - 1, by omega⟩
    exact arguments_last (h.reads hts hroom (by intro t ht; cases ht; rfl))
  | .more h hs => by
    intro outer base left position n ts rest hts hroom hn
    obtain ⟨us, position', ws, rfl, hus, hws⟩ := lexemes_eq_append_cons hts
    simp only [List.length_append, List.length_cons] at hn
    simp only [List.append_assoc, List.cons_append] at hroom ⊢
    obtain ⟨n, rfl⟩ : ∃ m, n = m + 1 := ⟨n - 1, by omega⟩
    have hroom' : Room ⟨outer, base, 0, false⟩ left (ws ++ ⟨.rightParen, position⟩ :: rest) :=
      hroom.behind (hus ▸ h.closes) joins_comma
    exact arguments_more (h.reads hus hroom (by intro t ht; cases ht; rfl))
      (hs.reads hws hroom' (by omega))

end

/-- Behind an equals sign the formula starts where it would start without one. -/
theorem WithinLimits.withoutEquals {ts : List Token} (h : WithinLimits (lexemes ts)) :
    WithinLimits (lexemes (withoutEquals ts)) := by
  unfold Formula.withoutEquals
  split
  · exact (Nat.le_max_right _ _).trans h
  · exact h

theorem WithinLimits.room {ts : List Token} (h : WithinLimits (lexemes ts)) :
    Room .start (maxFrames - 5) ts := by
  have hle : Place.start.most (lexemes ts) ≤ 900 := h
  have hmax : maxFrames = 1000 := rfl
  unfold Room
  omega

end Grammar

namespace Formula

open Grammar

theorem ofTokens_complete {ts : List Token} {tree : Content} (hlimits : WithinLimits (lexemes ts))
    (h : Whole (lexemes (withoutEquals ts)) tree) : ofTokens ts = .ok tree := by
  obtain ⟨hcomparative, hoperand⟩ := h
  rename_i v
  -- Nothing follows a whole formula, so nothing can go on with it.
  have hread : expression maxFrames (withoutEquals ts) = .ok (v, []) := by
    have hempty : Stops extendsExpression [] := by
      intro t ht
      cases ht
    have hroom : Room .start (maxFrames - 5) (withoutEquals ts ++ []) := by
      rw [List.append_nil]
      exact hlimits.withoutEquals.room
    have hread := hcomparative.reads rfl hroom hempty
    rw [List.append_nil] at hread
    exact hread
  unfold ofTokens
  split
  · rename_i hnil
    rw [hnil] at hread
    cases hread
  · rw [hread]
    show (asOperand v >>= _) = _
    rw [asOperand_complete hoperand]
    rfl

/-- A text is read as a tree exactly if it can be cut into tokens and the grammar derives these, less
an equals sign in front, as a formula with that tree. Parentheses, calls and minus signs may pile up as
far as there are frames for all of them together. -/
theorem parse_eq_ok_iff {text : String} {tree : Content}
    (hlimits : ∀ ts, Token.scan text = .ok ts → WithinLimits (lexemes ts)) :
    parse text = .ok tree ↔
      ∃ ts, Token.scan text = .ok ts ∧ Whole (lexemes (withoutEquals ts)) tree := by
  unfold parse
  constructor
  · intro h
    split at h
    · rename_i ts hscan
      exact ⟨ts, hscan, ofTokens_sound h⟩
    · cases h
  · rintro ⟨ts, hscan, hwhole⟩
    rw [hscan]
    exact ofTokens_complete (hlimits ts hscan) hwhole

theorem parse_negated_call :
    (∀ ts, Token.scan "=-SUM(A1, 2) < 3" = .ok ts → WithinLimits (lexemes ts)) ∧
      parse "=-SUM(A1, 2) < 3" =
        .ok (.call (.comparison .less)
          [.call (.aggregate .multiply)
              [.integer (-1), .call (.aggregate .sum) [.text "A1", .integer 2]],
            .literal (.integer 3)]) := by
  have hscan : Token.scan "=-SUM(A1, 2) < 3" =
      .ok [⟨.operator (.comparison .equal), 0⟩, ⟨.operator (.arithmetic .subtract), 1⟩,
        ⟨.identifier "SUM", 2⟩, ⟨.leftParen, 5⟩, ⟨.identifier "A1", 6⟩, ⟨.comma, 8⟩,
        ⟨.number "2", 10⟩, ⟨.rightParen, 11⟩, ⟨.operator (.comparison .less), 13⟩,
        ⟨.number "3", 15⟩] := by rfl
  have hlimits : ∀ ts, Token.scan "=-SUM(A1, 2) < 3" = .ok ts → WithinLimits (lexemes ts) := by
    intro ts hts
    rw [hscan] at hts
    cases hts
    decide
  have htwo : Atom [.number "2"] (.integer 2) := .number (by rfl)
  have hthree : Atom [.number "3"] (.integer 3) := .number (by rfl)
  have hitems : Items ([.identifier "A1"] ++ .comma :: [.number "2"]) [.text "A1", .integer 2] :=
    .more (.single (.single (.single (.atom (.name "A1")))))
      (.last (.single (.single (.single (.atom htwo)))))
  -- The tree is built from the grammar upwards and the parser is never run.
  have hcall : Atom (.identifier "SUM" :: .leftParen ::
      ([.identifier "A1"] ++ .comma :: [.number "2"]) ++ [.rightParen])
      (.call (.aggregate .sum) [.text "A1", .integer 2]) := .call (by decide) (.some hitems)
  have hsum : Additive [.operator (.arithmetic .subtract), .identifier "SUM", .leftParen,
      .identifier "A1", .comma, .number "2", .rightParen]
      (.call (.aggregate .multiply)
        [.integer (-1), .call (.aggregate .sum) [.text "A1", .integer 2]]) :=
    .single (.single (.minus (.atom hcall) rfl))
  have hwhole := Comparative.pair .less hsum (.single (.single (.atom hthree))) (.tree _ _)
    (.value rfl (by intro s hs; cases hs))
  exact ⟨hlimits, (parse_eq_ok_iff hlimits).mpr ⟨_, hscan, .mk hwhole (.tree _ _)⟩⟩

end Formula

end Spreadsheet
