import Spreadsheet.Proofs.Formula.Soundness

/-!
# Positions of tokens

A formula is read by its lexemes. The positions of its tokens go no further than into errors. If all
tokens are moved, each reader takes as many of them off its list, comes to the same result and names
the moved positions in its errors. So two rows of the same lexemes are read alike.
-/

namespace Spreadsheet

open Grammar

/-! ## Moved tokens -/

def Token.moved (move : Nat → Nat) (t : Token) : Token :=
  ⟨t.lexeme, move t.position⟩

/-- What an error of the parser becomes, if the tokens are moved. The scanner counts characters, and
no other error names a position. -/
def ParseError.moved (move : Nat → Nat) : ParseError → ParseError
  | .unexpectedToken t => .unexpectedToken (t.moved move)
  | .expectedSeparator t => .expectedSeparator (t.moved move)
  | .chainedComparison position => .chainedComparison (move position)
  | .badNumber position e => .badNumber (move position) e
  | e => e

inductive ParseErrorClass where
  | tokenizer
  | expression
  | functionName
  deriving DecidableEq

namespace ParseError

def errorClass : ParseError → ParseErrorClass
  | .lexical _ => .tokenizer
  | .unknownFunction _ => .functionName
  | _ => .expression

@[simp] theorem errorClass_moved (move : Nat → Nat) (e : ParseError) :
    (e.moved move).errorClass = e.errorClass := by
  cases e <;> rfl

end ParseError

namespace Formula

variable {α β : Type} {move : Nat → Nat}

def movedResult (move : Nat → Nat) :
    Except ParseError (α × List Token) → Except ParseError (α × List Token)
  | .ok (value, rest) => .ok (value, rest.map (Token.moved move))
  | .error e => .error (e.moved move)

def Movable (move : Nat → Nat) (r : Reader α) : Prop :=
  ∀ ts, r (ts.map (Token.moved move)) = movedResult move (r ts)

/-! ## Steps -/

theorem movedResult_map {x : Except ParseError (α × List Token)} (f : α → β) :
    (movedResult move x).map (fun found => (f found.1, found.2)) =
      movedResult move (x.map fun found => (f found.1, found.2)) := by
  cases x <;> rfl

theorem movedResult_bind {x : Except ParseError (α × List Token)}
    {k k' : α × List Token → Except ParseError (β × List Token)}
    (hk : ∀ value rest, k' (value, rest.map (Token.moved move)) = movedResult move (k (value, rest))) :
    movedResult move x >>= k' = movedResult move (x >>= k) := by
  cases x with
  | error e => rfl
  | ok found => exact hk found.1 found.2

theorem asOperand_cases (v : Content) :
    (∃ w, asOperand v = .ok w) ∨ ∃ s, asOperand v = .error (.notAnExpression s) := by
  unfold asOperand
  split
  · split
    · exact .inl ⟨_, rfl⟩
    · split
      · exact .inl ⟨_, rfl⟩
      · exact .inr ⟨_, rfl⟩
  · exact .inl ⟨_, rfl⟩
  · exact .inl ⟨_, rfl⟩

/-- What stands for an operand is found without a look at any token. -/
theorem asOperand_bind {v : Content} {k k' : Content → Except ParseError (β × List Token)}
    (hk : ∀ w, k' w = movedResult move (k w)) :
    asOperand v >>= k' = movedResult move (asOperand v >>= k) := by
  rcases asOperand_cases v with ⟨w, hw⟩ | ⟨s, hs⟩
  · rw [hw]
    exact hk w
  · rw [hs]
    rfl

theorem checkNotChained_bind {ts : List Token} {value : β} :
    (do checkNotChained (ts.map (Token.moved move)); return (value, ts.map (Token.moved move))) =
      movedResult move (do checkNotChained ts; return (value, ts)) := by
  cases ts with
  | nil => rfl
  | cons t ts =>
    obtain ⟨l, position⟩ := t
    cases l with
    | operator op => cases op <;> rfl
    | _ => rfl

/-! ## Readers -/

theorem arguments_movable {expr : Reader Content} (hexpr : Movable move expr) (n : Nat) :
    Movable move (arguments expr n) := by
  -- Behind a comma the list goes on with one argument less.
  induction n with
  | zero => exact fun _ => rfl
  | succ n ih =>
    intro ts
    unfold arguments
    rw [hexpr ts]
    apply movedResult_bind
    intro argument rest
    cases rest with
    | nil => rfl
    | cons t rest =>
      obtain ⟨l, position⟩ := t
      cases l with
      | rightParen => rfl
      | comma =>
        show arguments expr n (rest.map (Token.moved move)) >>= _ = _
        rw [ih rest]
        exact movedResult_bind fun _ _ => rfl
      | _ => rfl

theorem call_movable {expr : Reader Content} (hexpr : Movable move expr) (name : String) :
    Movable move (call expr name) := by
  intro ts
  cases hf : functionNamed? name with
  | none =>
    simp only [call, hf]
    rfl
  | some f =>
    -- An empty argument list is read by a branch of its own.
    by_cases hts : ∀ t ∈ ts.head?, t.lexeme ≠ .rightParen
    · have hmoved : ∀ t ∈ (ts.map (Token.moved move)).head?, t.lexeme ≠ .rightParen := by
        intro t ht
        rw [List.head?_map] at ht
        obtain ⟨u, hu, rfl⟩ := Option.map_eq_some_iff.mp ht
        exact hts u hu
      rw [call_eq_arguments hf hts, call_eq_arguments hf hmoved, List.length_map,
        arguments_movable hexpr _ ts]
      exact movedResult_map (Content.call f)
    · push Not at hts
      obtain ⟨⟨l, position⟩, ht, rfl⟩ := hts
      obtain ⟨rest, rfl⟩ := List.head?_eq_some_iff.mp ht
      rw [List.map_cons, call_eq_nil hf]
      exact call_eq_nil hf (move position) _

theorem atom_movable {expr argument : Reader Content} (hexpr : Movable move expr)
    (hargument : Movable move argument) : Movable move (atom expr argument) := by
  intro ts
  cases ts with
  | nil => rfl
  | cons t rest =>
    obtain ⟨l, position⟩ := t
    cases l with
    | number spelling =>
      simp only [List.map_cons, Token.moved, atom]
      cases Number.read spelling <;> rfl
    | identifier name =>
      -- A parenthesis behind the name makes a call of it.
      cases rest with
      | nil => rfl
      | cons t rest =>
        obtain ⟨l, place⟩ := t
        cases l with
        | leftParen => exact call_movable hargument name rest
        | _ => rfl
    | leftParen =>
      simp only [List.map_cons, Token.moved, atom]
      rw [hexpr rest]
      apply movedResult_bind
      intro value rest
      cases rest with
      | nil => rfl
      | cons t rest =>
        obtain ⟨l, place⟩ := t
        cases l <;> rfl
    | _ => rfl

theorem behindMinus?_moved (ts : List Token) :
    behindMinus? (ts.map (Token.moved move)) =
      (behindMinus? ts).map (List.map (Token.moved move)) := by
  cases ts with
  | nil => rfl
  | cons t ts =>
    obtain ⟨l, position⟩ := t
    cases l with
    | operator op =>
      cases op with
      | arithmetic op => cases op <;> rfl
      | comparison op => rfl
    | _ => rfl

theorem signed_movable {operand atom : Reader Content} (hoperand : Movable move operand)
    (hatom : Movable move atom) : Movable move (signed operand atom) := by
  intro ts
  unfold signed
  rw [behindMinus?_moved]
  cases behindMinus? ts with
  | none => exact hatom ts
  | some rest =>
    show (operand (rest.map (Token.moved move))).map _ = _
    rw [hoperand rest]
    exact movedResult_map negated

theorem chainFrom_movable {level : Arithmetic → Bool} {operand : Reader Content}
    (h : Movable move operand) (n : Nat) (left : Content) :
    Movable move (chainFrom level operand n left) := by
  -- The left part grows from one operator to the next.
  induction n generalizing left with
  | zero => exact fun _ => rfl
  | succ n ih =>
    intro ts
    cases ts with
    | nil => rfl
    | cons t ts =>
      obtain ⟨l, position⟩ := t
      cases l with
      | operator op =>
        cases op with
        | arithmetic op =>
          simp only [List.map_cons, Token.moved, chainFrom]
          split
          · rw [h ts]
            exact movedResult_bind fun right rest => ih _ rest
          · rfl
        | comparison op => rfl
      | _ => rfl

theorem chain_movable {level : Arithmetic → Bool} {operand : Reader Content}
    (h : Movable move operand) : Movable move (chain level operand) := by
  intro ts
  unfold chain
  rw [h ts]
  apply movedResult_bind
  intro left rest
  dsimp only
  rw [List.length_map]
  exact chainFrom_movable h _ left rest

theorem comparison_movable {sum : Reader Content} (h : Movable move sum) :
    Movable move (comparison sum) := by
  intro ts
  unfold comparison
  rw [h ts]
  apply movedResult_bind
  intro left rest
  cases rest with
  | nil => rfl
  | cons t rest =>
    obtain ⟨l, position⟩ := t
    cases l with
    | operator op =>
      cases op with
      | arithmetic op => rfl
      | comparison op =>
        -- Behind the operator the other sum is read, and no third one.
        show sum (rest.map (Token.moved move)) >>= _ = _
        rw [h rest]
        apply movedResult_bind
        intro right rest
        apply asOperand_bind
        intro left'
        apply asOperand_bind
        intro right'
        exact checkNotChained_bind
    | _ => rfl

theorem expression_movable (frames : Nat) : Movable move (expression frames) :=
  (readers_induct (P := Movable move) (Q := Movable move) (fun _ => rfl) (fun _ => rfl)
    (fun _ h => comparison_movable (chain_movable (chain_movable h)))
    (fun _ _ _ hoperand hexpr hargument =>
      signed_movable hoperand (atom_movable hexpr hargument)) frames).1

/-! ## Whole formulas -/

theorem withoutEquals_moved (ts : List Token) :
    withoutEquals (ts.map (Token.moved move)) = (withoutEquals ts).map (Token.moved move) := by
  cases ts with
  | nil => rfl
  | cons t ts =>
    obtain ⟨l, position⟩ := t
    cases l with
    | operator op =>
      cases op with
      | arithmetic op => rfl
      | comparison op => cases op <;> rfl
    | _ => rfl

theorem ofTokens_moved (move : Nat → Nat) (ts : List Token) :
    ofTokens (ts.map (Token.moved move)) = (ofTokens ts).mapError (ParseError.moved move) := by
  unfold ofTokens
  rw [withoutEquals_moved]
  cases withoutEquals ts with
  | nil => rfl
  | cons t ts =>
    rw [List.map_cons]
    dsimp only
    rw [← List.map_cons, expression_movable maxFrames (t :: ts)]
    cases expression maxFrames (t :: ts) with
    | error e => rfl
    | ok found =>
      obtain ⟨value, rest⟩ := found
      show asOperand value >>= _ = (asOperand value >>= _).mapError _
      rcases asOperand_cases value with ⟨w, hw⟩ | ⟨s, hs⟩
      · -- A token that is left over is named with its position.
        rw [hw]
        cases rest <;> rfl
      · rw [hs]
        rfl

/-- Two rows of the same lexemes are the same formula, or the same mistake in both. -/
theorem ofTokens_eq_of_lexemes {ts us : List Token} (h : lexemes ts = lexemes us) :
    (ofTokens ts).mapError (ParseError.moved fun _ => 0) =
      (ofTokens us).mapError (ParseError.moved fun _ => 0) := by
  have hmoved (ts : List Token) :
      ts.map (Token.moved fun _ => 0) = (lexemes ts).map fun l => ⟨l, 0⟩ := by
    unfold lexemes
    rw [List.map_map]
    rfl
  rw [← ofTokens_moved, ← ofTokens_moved, hmoved, hmoved, h]

theorem errorClass_eq_of_lexemes {ts us : List Token} (h : lexemes ts = lexemes us) :
    (ofTokens ts).mapError ParseError.errorClass = (ofTokens us).mapError ParseError.errorClass := by
  have hclass (x : Except ParseError Content) : x.mapError ParseError.errorClass =
      (x.mapError (ParseError.moved fun _ => 0)).mapError ParseError.errorClass := by
    cases x with
    | ok tree => rfl
    | error e => exact congrArg Except.error (e.errorClass_moved _).symm
  rw [hclass, hclass (ofTokens us), ofTokens_eq_of_lexemes h]

end Formula

end Spreadsheet
