import Mathlib.Data.List.TakeWhile
import Spreadsheet.Proofs.Formula.Grammar
import Spreadsheet.Proofs.Results

/-!
# What is read is derived

Every reader takes lexemes off the front of a list of tokens, and the grammar derives what it makes
of them.
-/

namespace Spreadsheet

open Text

namespace Grammar

def lexemes (ts : List Token) : List Lexeme :=
  ts.map Token.lexeme

@[simp] theorem lexemes_nil : lexemes [] = [] := rfl

@[simp] theorem lexemes_cons (t : Token) (ts : List Token) :
    lexemes (t :: ts) = t.lexeme :: lexemes ts := rfl

@[simp] theorem lexemes_append (ts us : List Token) :
    lexemes (ts ++ us) = lexemes ts ++ lexemes us := List.map_append

theorem lexemes_eq_append {ts : List Token} {ls ms : List Lexeme} (h : lexemes ts = ls ++ ms) :
    ∃ us ws, ts = us ++ ws ∧ lexemes us = ls ∧ lexemes ws = ms :=
  List.map_eq_append_iff.mp h

theorem lexemes_eq_cons {ts : List Token} {l : Lexeme} {ls : List Lexeme}
    (h : lexemes ts = l :: ls) : ∃ t us, ts = t :: us ∧ t.lexeme = l ∧ lexemes us = ls :=
  List.map_eq_cons_iff.mp h

theorem lexemes_eq_append_cons {ts : List Token} {l : Lexeme} {ls ms : List Lexeme}
    (h : lexemes ts = ls ++ l :: ms) :
    ∃ us position ws, ts = us ++ ⟨l, position⟩ :: ws ∧ lexemes us = ls ∧ lexemes ws = ms := by
  obtain ⟨us, ws, rfl, hus, hws⟩ := lexemes_eq_append h
  obtain ⟨t, ws, rfl, rfl, hws'⟩ := lexemes_eq_cons hws
  exact ⟨us, t.position, ws, rfl, hus, hws'⟩

theorem lexemes_eq_singleton {ts : List Token} {l : Lexeme} (h : lexemes ts = [l]) :
    ∃ position, ts = [⟨l, position⟩] := by
  obtain ⟨t, us, rfl, rfl, hus⟩ := lexemes_eq_cons h
  obtain rfl := List.map_eq_nil_iff.mp hus
  exact ⟨t.position, rfl⟩

end Grammar

namespace Formula

open Grammar

/-! ## Operands and names -/

theorem asOperand_sound {v w : Content} (h : asOperand v = .ok w) : Operand v w := by
  unfold asOperand at h
  split at h
  · rename_i s
    split at h
    · rename_i value hvalue
      cases h
      -- A truth word is tried before a reference, in this order.
      rw [ofBooleanWord?_eq_some_iff.mp hvalue]
      exact .truth value
    · split at h
      · rename_i hkind
        cases h
        rcases Bool.or_eq_true_iff.mp hkind with href | hquoted
        · exact .reference href
        · exact .quoted hquoted
      · cases h
  · cases h
    exact .tree _ _
  · rename_i htext hformula
    cases h
    refine .value ?_ htext
    cases v <;> first | rfl | exact absurd rfl (hformula _ _)

theorem functionNamed?_eq_some_iff {name : String} {f : Function} :
    functionNamed? name = some f ↔ f.name.toList = capitals name.toList := by
  unfold functionNamed?
  constructor
  · intro h
    rw [Function.name_of_ofName? h, String.toList_ofList]
  · intro h
    rw [← h, String.ofList_toList]
    exact Function.ofName?_name f

/-! ## Readers -/

/-- Whether all that a reader accepts is in a relation: the reader takes lexemes off the front of its
list, and these are related to its result. -/
def Sound {α : Type} (p : Reader α) (P : List Lexeme → α → Prop) : Prop :=
  ∀ ts v rest, p ts = .ok (v, rest) → ∃ used, ts = used ++ rest ∧ P (lexemes used) v

theorem Sound.length_le {α : Type} {p : Reader α} {P : List Lexeme → α → Prop} (hp : Sound p P)
    {ts rest : List Token} {v : α} (h : p ts = .ok (v, rest)) : rest.length ≤ ts.length := by
  obtain ⟨used, rfl, -⟩ := hp ts v rest h
  simp

theorem arguments_sound {expr : Reader Content} (hexpr : Sound expr Comparative) (n : Nat) :
    Sound (arguments expr n) fun ls vs => ∃ ms, ls = ms ++ [.rightParen] ∧ Items ms vs := by
  -- The bound is the number of arguments that are still to come.
  induction n with
  | zero =>
    intro ts vs rest h
    cases h
  | succ n ih =>
    intro ts vs rest h
    obtain ⟨⟨v, ts'⟩, hv, hk⟩ := bind_eq_ok h
    obtain ⟨used, rfl, hused⟩ := hexpr _ _ _ hv
    cases ts' with
    | nil => cases hk
    | cons t ts' =>
      dsimp only at hk
      split at hk
      · rename_i ht
        cases hk
        refine ⟨used ++ [t], by simp, lexemes used, by simp [ht], .last hused⟩
      · -- Behind a comma the list goes on, with one round less.
        rename_i ht
        obtain ⟨⟨others, rest'⟩, hothers, hk⟩ := bind_eq_ok hk
        cases hk
        obtain ⟨more, rfl, ms, hms, hitems⟩ := ih _ _ _ hothers
        refine ⟨used ++ t :: more, by simp, lexemes used ++ .comma :: ms, ?_, .more hused hitems⟩
        simp [ht, hms]
      · cases hk

theorem call_eq_nil {expr : Reader Content} {name : String} {f : Function}
    (hf : functionNamed? name = some f) (position : Nat) (rest : List Token) :
    call expr name (⟨.rightParen, position⟩ :: rest) = .ok (.call f [], rest) := by
  simp only [call, hf]

theorem call_eq_arguments {expr : Reader Content} {name : String} {f : Function} {ts : List Token}
    (hf : functionNamed? name = some f) (hts : ∀ t ∈ ts.head?, t.lexeme ≠ .rightParen) :
    call expr name ts =
      (arguments expr (ts.length + 1) ts).map fun found => (.call f found.1, found.2) := by
  simp only [call, hf]
  split
  · exact absurd rfl (hts _ rfl)
  · rfl

theorem call_sound {expr : Reader Content} (hexpr : Sound expr Comparative) (name : String) :
    Sound (call expr name) fun ls v => Atom (.identifier name :: .leftParen :: ls) v := by
  intro ts v rest h
  unfold call at h
  split at h
  · cases h
  · rename_i f hf
    have hname := functionNamed?_eq_some_iff.mp hf
    split at h
    · -- A closing parenthesis right away: a call without arguments.
      rename_i position rest'
      cases h
      exact ⟨[⟨.rightParen, position⟩], by simp, .call hname .none⟩
    · obtain ⟨⟨args, rest'⟩, hargs, h⟩ := map_eq_ok h
      cases h
      obtain ⟨used, rfl, ms, hms, hitems⟩ := arguments_sound hexpr _ _ _ _ hargs
      refine ⟨used, rfl, ?_⟩
      rw [hms]
      exact .call hname (.some hitems)

theorem atom_sound {expr argument : Reader Content} (hexpr : Sound expr Comparative)
    (hargument : Sound argument Comparative) : Sound (atom expr argument) Atom := by
  intro ts v rest h
  cases ts with
  | nil => cases h
  | cons t ts =>
    obtain ⟨l, position⟩ := t
    cases l with
    -- A name is a call when a parenthesis follows it and a word otherwise.
    | identifier name =>
      simp only [atom] at h
      split at h
      · rename_i position' rest'
        obtain ⟨used, rfl, hatom⟩ := call_sound hargument name _ _ _ h
        exact ⟨⟨.identifier name, position⟩ :: ⟨.leftParen, position'⟩ :: used, by simp, hatom⟩
      · cases h
        exact ⟨[⟨.identifier name, position⟩], by simp, .name name⟩
    | number spelling =>
      simp only [atom] at h
      split at h
      · rename_i n hn
        cases h
        exact ⟨[⟨.number spelling, position⟩], by simp, .number hn⟩
      · cases h
    | operator op => cases h
    -- The parentheses are part of what was read but leave no node behind.
    | leftParen =>
      obtain ⟨⟨v', ts'⟩, hv, hk⟩ := bind_eq_ok h
      obtain ⟨used, rfl, hused⟩ := hexpr _ _ _ hv
      dsimp only at hk
      split at hk
      · rename_i position' rest'
        cases hk
        refine ⟨⟨.leftParen, position⟩ :: used ++ [⟨.rightParen, position'⟩], by simp, ?_⟩
        simpa using Atom.group hused
      · cases hk
    | rightParen => cases h
    | comma => cases h
    | boolean value =>
      cases h
      exact ⟨[⟨.boolean value, position⟩], by simp, .boolean value⟩
    | string spelling =>
      cases h
      exact ⟨[⟨.string spelling, position⟩], by simp, .string spelling⟩

/-! ## Signs and chains -/

theorem Unary.negated {ls : List Lexeme} {v : Content} (h : Unary ls v) :
    Unary (.operator (.arithmetic .subtract) :: ls) (negated v) := by
  cases v with
  | number n => exact .negative h
  | _ => exact .minus h rfl

theorem behindMinus?_eq_some_iff {ts rest : List Token} :
    behindMinus? ts = some rest ↔
      ∃ position, ts = ⟨.operator (.arithmetic .subtract), position⟩ :: rest := by
  constructor
  · intro h
    unfold behindMinus? at h
    split at h
    · rename_i position rest'
      cases h
      exact ⟨position, rfl⟩
    · cases h
  · rintro ⟨position, rfl⟩
    rfl

theorem signed_minus {operand atom : Reader Content} {ts rest : List Token} {position : Nat}
    {v : Content} (h : operand ts = .ok (v, rest)) :
    signed operand atom (⟨.operator (.arithmetic .subtract), position⟩ :: ts) =
      .ok (negated v, rest) := by
  show (operand ts).map _ = _
  rw [h]
  rfl

theorem signed_sound {operand atom : Reader Content} (hoperand : Sound operand Unary)
    (hatom : Sound atom Atom) : Sound (signed operand atom) Unary := by
  intro ts v rest h
  unfold signed at h
  split at h
  · rename_i ts' hminus
    obtain ⟨position, rfl⟩ := behindMinus?_eq_some_iff.mp hminus
    obtain ⟨⟨v', rest'⟩, hv, h⟩ := map_eq_ok h
    cases h
    obtain ⟨used, rfl, hused⟩ := hoperand _ _ _ hv
    exact ⟨⟨.operator (.arithmetic .subtract), position⟩ :: used, rfl, Unary.negated hused⟩
  · obtain ⟨used, rfl, hused⟩ := hatom _ _ _ h
    exact ⟨used, rfl, .atom hused⟩

theorem chainFrom_operator {level : Arithmetic → Bool} {operand : Reader Content}
    {op : Arithmetic} (hlevel : level op = true) {ts rest : List Token} {b : Content}
    (hright : operand ts = .ok (b, rest)) (n position : Nat) (a : Content) :
    chainFrom level operand (n + 1) a (⟨.operator (.arithmetic op), position⟩ :: ts) =
      chainFrom level operand n (.call (.aggregate op.function) [a, b]) rest := by
  simp only [chainFrom, hlevel, if_true, hright]
  rfl

theorem chainFrom_of_level_eq_false {level : Arithmetic → Bool} (operand : Reader Content)
    {op : Arithmetic} (hlevel : level op = false) (n position : Nat) (a : Content)
    (ts : List Token) :
    chainFrom level operand n a (⟨.operator (.arithmetic op), position⟩ :: ts) =
      .ok (a, ⟨.operator (.arithmetic op), position⟩ :: ts) := by
  cases n with
  | zero => rfl
  | succ n => simp only [chainFrom, hlevel, Bool.false_eq_true, if_false]

/-- What is read of a chain stays derived while it grows by one operator and operand at a time. -/
theorem chainFrom_sound {level : Arithmetic → Bool} {operand : Reader Content}
    {P Q : List Lexeme → Content → Prop} (hoperand : Sound operand P)
    (hstep : ∀ {ls ms a b op}, level op = true → Q ls a → P ms b →
      Q (ls ++ .operator (.arithmetic op) :: ms) (.call (.aggregate op.function) [a, b]))
    (n : Nat) {left v : Content} {ts rest : List Token} {ls : List Lexeme} (hleft : Q ls left)
    (h : chainFrom level operand n left ts = .ok (v, rest)) :
    ∃ used, ts = used ++ rest ∧ Q (ls ++ lexemes used) v := by
  -- The invariant is that the part on the left is a chain of its lexemes, which takes in one more
  -- operand at each step.
  induction n generalizing left ts ls with
  | zero =>
    cases h
    exact ⟨[], rfl, by simpa using hleft⟩
  | succ n ih =>
    cases ts with
    | nil =>
      cases h
      exact ⟨[], rfl, by simpa using hleft⟩
    | cons t ts =>
      simp only [chainFrom] at h
      split at h
      · rename_i op hop
        split at h
        · rename_i hlevel
          obtain ⟨⟨right, ts'⟩, hright, hk⟩ := bind_eq_ok h
          obtain ⟨used, rfl, hused⟩ := hoperand _ _ _ hright
          -- The tree so far becomes the left operand of the next round.
          obtain ⟨more, rfl, hmore⟩ := ih (hstep hlevel hleft hused) hk
          refine ⟨t :: used ++ more, by simp, ?_⟩
          simpa [hop] using hmore
        · cases h
          exact ⟨[], rfl, by simpa using hleft⟩
      · cases h
        exact ⟨[], rfl, by simpa using hleft⟩

theorem chain_sound {level : Arithmetic → Bool} {operand : Reader Content}
    {P Q : List Lexeme → Content → Prop} (hoperand : Sound operand P)
    (hsingle : ∀ {ls v}, P ls v → Q ls v)
    (hstep : ∀ {ls ms a b op}, level op = true → Q ls a → P ms b →
      Q (ls ++ .operator (.arithmetic op) :: ms) (.call (.aggregate op.function) [a, b])) :
    Sound (chain level operand) Q := by
  intro ts v rest h
  obtain ⟨⟨left, ts'⟩, hleft, hk⟩ := bind_eq_ok h
  obtain ⟨used, rfl, hused⟩ := hoperand _ _ _ hleft
  obtain ⟨more, rfl, hmore⟩ := chainFrom_sound hoperand hstep _ (hsingle hused) hk
  exact ⟨used ++ more, by simp, by simpa using hmore⟩

/-! ## Expressions -/

theorem comparison_sound {sum : Reader Content} (hsum : Sound sum Additive) :
    Sound (comparison sum) Comparative := by
  intro ts v rest h
  obtain ⟨⟨left, ts'⟩, hleft, hk⟩ := bind_eq_ok h
  obtain ⟨used, rfl, hused⟩ := hsum _ _ _ hleft
  dsimp only at hk
  split at hk
  · cases hk
    exact ⟨used, rfl, .single hused⟩
  · rename_i op ts'' hcomparison
    obtain ⟨⟨right, ts'''⟩, hright, hrest⟩ := bind_eq_ok hk
    obtain ⟨more, rfl, hmore⟩ := hsum _ _ _ hright
    obtain ⟨left', hleft', hrest⟩ := bind_eq_ok hrest
    obtain ⟨right', hright', hrest⟩ := bind_eq_ok hrest
    obtain ⟨_, -, hrest⟩ := bind_eq_ok hrest
    cases hrest
    -- The operator is looked at last: which one it is does not matter to the operands.
    unfold comparison? at hcomparison
    split at hcomparison
    · rename_i op' position ts''
      cases hcomparison
      refine ⟨used ++ ⟨.operator (.comparison op), position⟩ :: more, by simp, ?_⟩
      rw [lexemes_append]
      exact .pair op hused hmore (asOperand_sound hleft') (asOperand_sound hright')
    · cases hcomparison

theorem levels_sound {operand : Reader Content} (hoperand : Sound operand Unary) :
    Sound (levels operand) Comparative := by
  have hproduct : Sound (chain Arithmetic.isMultiplicative operand) Multiplicative :=
    chain_sound hoperand .single fun hlevel ha hb => .step _ hlevel ha hb
  exact comparison_sound (chain_sound hproduct .single fun hlevel ha hb => .step _ hlevel ha hb)

/-- What holds of the reader that refuses everything, and at a level of the grammar if it holds at those
below, holds however many frames are left. -/
theorem readers_induct {P Q : Reader Content → Prop} (hP : P fun _ => .error .nestedTooDeeply)
    (hQ : Q fun _ => .error .nestedTooDeeply) (hlevels : ∀ operand, Q operand → P (levels operand))
    (hsigned : ∀ operand expr argument, Q operand → P expr → P argument →
      Q (signed operand (atom expr argument))) (frames : Nat) :
    P (expression frames) ∧ Q (operand frames) := by
  -- An operand behind a sign has one frame less, and an expression in parentheses seven.
  induction frames using Nat.strong_induction_on with
  | h frames ih =>
    constructor
    · match frames with
      | 0 | 1 | 2 | 3 | 4 => exact hP
      | frames + 5 => exact hlevels _ (ih frames (by omega)).2
    · match frames with
      | 0 | 1 | 2 => exact hQ
      | frames + 3 =>
        exact hsigned _ _ _ (ih (frames + 2) (by omega)).2 (ih (frames + 1) (by omega)).1
          (ih frames (by omega)).1

theorem sound_error {α : Type} (P : List Lexeme → α → Prop) (e : ParseError) :
    Sound (fun _ => .error e) P := by
  intro ts v rest h
  cases h

theorem readers_sound (frames : Nat) :
    Sound (expression frames) Comparative ∧ Sound (operand frames) Unary :=
  readers_induct (P := fun r => Sound r Comparative) (Q := fun r => Sound r Unary)
    (sound_error _ _) (sound_error _ _) (fun _ => levels_sound)
    (fun _ _ _ hoperand hexpr hargument => signed_sound hoperand (atom_sound hexpr hargument)) frames

theorem ofTokens_sound {ts : List Token} {tree : Content} (h : ofTokens ts = .ok tree) :
    Whole (lexemes (withoutEquals ts)) tree := by
  unfold ofTokens at h
  split at h
  · cases h
  · obtain ⟨⟨v, rest⟩, hv, hk⟩ := bind_eq_ok h
    obtain ⟨tree', htree, hk⟩ := bind_eq_ok hk
    obtain ⟨used, hused, hderived⟩ := (readers_sound _).1 _ _ _ hv
    split at hk
    · cases hk
      rw [hused, List.append_nil]
      exact .mk hderived (asOperand_sound htree)
    · cases hk

/-- What an equals sign in front does not matter to holds of all lexemes of a formula. -/
theorem of_lexemes_withoutEquals {P : List Lexeme → Prop}
    (hequal : ∀ ls, P ls → P (.operator (.comparison .equal) :: ls)) {ts : List Token}
    (h : P (lexemes (withoutEquals ts))) : P (lexemes ts) := by
  unfold withoutEquals at h
  split at h
  · exact hequal _ h
  · exact h

end Formula

end Spreadsheet
