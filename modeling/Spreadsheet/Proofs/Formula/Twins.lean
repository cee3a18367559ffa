import Spreadsheet.Proofs.Formula.Soundness

/-!
# Formulas that differ in numbers and names

Two rows of tokens are twins if they differ in no more than their numbers and the names that are no
functions. Where the first of them is read, so is the second, and its tree has the same shape. The
tree of the second is that of the first with its texts renamed if and only if each of its numbers has
the same value and each of its names is the renamed one.
-/

namespace Spreadsheet

open Text Grammar

/-! ## Renaming the texts of a tree -/

namespace Content

mutual

def mapText (rename : String → String) : Content → Content
  | .text s => .text (rename s)
  | .formula name args => .formula name (mapTexts rename args)
  | c => c

def mapTexts (rename : String → String) : List Content → List Content
  | [] => []
  | arg :: args => mapText rename arg :: mapTexts rename args

end

@[simp] theorem mapTexts_nil (rename : String → String) : mapTexts rename [] = [] := rfl

@[simp] theorem mapTexts_cons (rename : String → String) (arg : Content) (args : List Content) :
    mapTexts rename (arg :: args) = mapText rename arg :: mapTexts rename args := rfl

@[simp] theorem mapText_text (rename : String → String) (s : String) :
    mapText rename (.text s) = .text (rename s) := rfl

@[simp] theorem mapText_number (rename : String → String) (n : Number) :
    mapText rename (.number n) = .number n := rfl

@[simp] theorem mapText_formula (rename : String → String) (name : Json) (args : List Content) :
    mapText rename (.formula name args) = .formula name (mapTexts rename args) := rfl

end Content

theorem Double.neg_inj {x y : Double} : x.neg = y.neg ↔ x = y := by
  constructor
  · intro h
    cases x <;> cases y <;> simp_all [neg]
  · intro heq
    subst heq
    rfl

theorem Number.neg_inj {m n : Number} : m.neg = n.neg ↔ m = n := by
  cases m with
  | integer m =>
    cases n with
    | integer n => simp [neg]
    | double y => simp [neg]
  | double x =>
    cases n with
    | integer n => simp [neg]
    | double y => simp [neg, Double.neg_inj]

namespace Formula

variable {rename : String → String}

/-! ## Twins -/

def TextTwins (rename : String → String) (s t : String) : Prop :=
  ∀ w, asOperand (.text s) = .ok w → ∃ x y, w = .literal x ∧
    asOperand (.text t) = .ok (.literal y) ∧ (t = rename s ↔ y = x.mapText rename)

inductive Twins (rename : String → String) : Lexeme → Lexeme → Prop
  | number {s t : String} {m n : Number} :
      Number.read s = .ok m → Number.read t = .ok n → Twins rename (.number s) (.number t)
  | identifier {s t : String} :
      (∀ f, functionNamed? s = some f → t = s ∧ rename s = s) → TextTwins rename s t →
      Twins rename (.identifier s) (.identifier t)
  | string {s : String} : rename s = s → Twins rename (.string s) (.string s)
  | boolean {value : Bool} :
      rename (booleanWord value) = booleanWord value → Twins rename (.boolean value) (.boolean value)
  | operator (op : Operator) : Twins rename (.operator op) (.operator op)
  | leftParen : Twins rename .leftParen .leftParen
  | rightParen : Twins rename .rightParen .rightParen
  | comma : Twins rename .comma .comma

def Keeps (rename : String → String) : Lexeme → Lexeme → Prop
  | .number s, .number t => Number.read t = Number.read s
  | .identifier s, .identifier t => t = rename s
  | _, _ => True

inductive Alike (rename : String → String) (agree : Prop) : Content → Content → Prop
  | number {m n : Number} : (agree ↔ n = m) → Alike rename agree (.number m) (.number n)
  | text {s t : String} :
      (agree ↔ t = rename s) → TextTwins rename s t → Alike rename agree (.text s) (.text t)
  | formula {name : Json} {args brgs : List Content} :
      (agree ↔ brgs = Content.mapTexts rename args) →
      Alike rename agree (.formula name args) (.formula name brgs)

namespace Alike

variable {agree other : Prop} {v w a b : Content}

theorem iff (h : Alike rename agree v w) : agree ↔ w = v.mapText rename := by
  cases h with
  | number hn => simp [hn]
  | text hs _ => simp [hs]
  | formula hargs => simp [hargs]

theorem congr (h : Alike rename agree v w) (hiff : agree ↔ other) : Alike rename other v w := by
  rw [← propext hiff]
  exact h

theorem call (f : Function) (h : Alike rename agree v w) (h' : Alike rename other a b) :
    Alike rename (agree ∧ other) (.call f [v, a]) (.call f [w, b]) := by
  apply Alike.formula
  simp [h.iff, h'.iff]

theorem negated (h : Alike rename agree v w) : Alike rename agree (negated v) (negated w) := by
  cases h with
  | number hn =>
    apply Alike.number
    rw [hn, Number.neg_inj]
  | text hs _ =>
    apply Alike.formula
    simp [hs, Content.integer]
  | formula hargs =>
    apply Alike.formula
    simp [hargs, Content.integer]

/-- What one tree becomes as an operand the other becomes too. -/
theorem asOperand (h : Alike rename agree v w) (hv : asOperand v = .ok a) :
    ∃ b, Formula.asOperand w = .ok b ∧ Alike rename agree a b := by
  cases h with
  | number hn =>
    cases hv
    refine ⟨_, rfl, .formula ?_⟩
    simp [hn]
  | text hs htwins =>
    obtain ⟨x, y, rfl, hy, hiff⟩ := htwins a hv
    refine ⟨_, hy, .formula ?_⟩
    simp [hs, hiff]
  | formula hargs =>
    cases hv
    exact ⟨_, rfl, .formula hargs⟩

end Alike

theorem textTwins_self {s : String} (h : rename s = s) : TextTwins rename s s := by
  intro w hw
  -- A truth value, a reference or a quoted text; a tree is no text.
  rcases asOperand_sound hw with _ | value | hs | hs | ⟨-, htext⟩
  · exact ⟨.bool value, .bool value, rfl, hw, by simp [h, Content.mapText]⟩
  · exact ⟨.text s, .text s, rfl, hw, by simp [h]⟩
  · exact ⟨.text s, .text s, rfl, hw, by simp [h]⟩
  · exact absurd rfl (htext s)

/-! ## Reading twins -/

def AllTwins (rename : String → String) (ps : List (Token × Token)) : Prop :=
  ∀ p ∈ ps, Twins rename p.1.lexeme p.2.lexeme

def AllKeep (rename : String → String) (ps : List (Token × Token)) : Prop :=
  ∀ p ∈ ps, Keeps rename p.1.lexeme p.2.lexeme

theorem allTwins_append {ps qs : List (Token × Token)} :
    AllTwins rename (ps ++ qs) ↔ AllTwins rename ps ∧ AllTwins rename qs :=
  List.forall_mem_append

theorem allKeep_append {ps qs : List (Token × Token)} :
    AllKeep rename (ps ++ qs) ↔ AllKeep rename ps ∧ AllKeep rename qs :=
  List.forall_mem_append

theorem allKeep_cons {p : Token × Token} {ps : List (Token × Token)} :
    AllKeep rename (p :: ps) ↔ Keeps rename p.1.lexeme p.2.lexeme ∧ AllKeep rename ps :=
  List.forall_mem_cons

theorem allKeep_nil : AllKeep rename [] := nofun

/-- Whether a reader that reads the first row of twins reads the second, takes as many tokens off
it, and comes to related results. -/
def Mirrors {α : Type} (rename : String → String) (r : Reader α) (R : Prop → α → α → Prop) : Prop :=
  ∀ ps v rest, AllTwins rename ps → r (ps.map Prod.fst) = .ok (v, rest) →
    ∃ used left w, ps = used ++ left ∧ rest = left.map Prod.fst ∧
      r (ps.map Prod.snd) = .ok (w, left.map Prod.snd) ∧ R (AllKeep rename used) v w

def ArgumentsAgree (rename : String → String) (agree : Prop) (args brgs : List Content) : Prop :=
  agree ↔ brgs = Content.mapTexts rename args

theorem arguments_mirrors {expr : Reader Content} (hexpr : Mirrors rename expr (Alike rename))
    (n : Nat) : Mirrors rename (arguments expr n) (ArgumentsAgree rename) := by
  -- One argument is read from either row, and the rows behind it are twins again.
  induction n with
  | zero =>
    intro ps v rest _ h
    cases h
  | succ n ih =>
    intro ps vs rest htwins h
    obtain ⟨⟨v, ts⟩, hv, hk⟩ := bind_eq_ok h
    obtain ⟨used, left, w, rfl, rfl, hw, halike⟩ := hexpr _ _ _ htwins hv
    obtain ⟨-, hleft⟩ := allTwins_append.mp htwins
    cases left with
    | nil => cases hk
    | cons p left =>
      obtain ⟨⟨l, position⟩, ⟨m, position'⟩⟩ := p
      have hp : Twins rename l m := hleft _ List.mem_cons_self
      have hrest : AllTwins rename left := fun q hq => hleft q (List.mem_cons_of_mem _ hq)
      cases hp with
      | rightParen =>
        cases hk
        refine ⟨used ++ [(⟨.rightParen, position⟩, ⟨.rightParen, position'⟩)], left, [w], by simp,
          rfl, ?_, ?_⟩
        · simp only [arguments, hw]
          rfl
        · unfold ArgumentsAgree
          simp [allKeep_append, allKeep_cons, allKeep_nil, Keeps, halike.iff]
      | comma =>
        obtain ⟨⟨others, ts⟩, hothers, hk⟩ := bind_eq_ok hk
        cases hk
        obtain ⟨more, left', ws, rfl, rfl, hws, hagree⟩ := ih _ _ _ hrest hothers
        refine ⟨used ++ (⟨.comma, position⟩, ⟨.comma, position'⟩) :: more, left', w :: ws, by simp,
          rfl, ?_, ?_⟩
        · -- The second row is read in step with the first.
          simp only [arguments, hw]
          simp only [bind, Except.bind, List.map_cons, hws]
          rfl
        · unfold ArgumentsAgree at hagree ⊢
          simp [allKeep_append, allKeep_cons, Keeps, halike.iff, hagree]
      | _ => cases hk

/-- If the first of two rows of twins does not start with some mark, neither does the second. -/
theorem heads_ne {ps : List (Token × Token)} {mark : Lexeme} (hps : AllTwins rename ps)
    (hmark : ∀ l, Twins rename l mark → l = mark)
    (h : ¬∃ p qs, ps = p :: qs ∧ p.1.lexeme = mark) :
    (∀ t ∈ (ps.map Prod.fst).head?, t.lexeme ≠ mark) ∧
      ∀ t ∈ (ps.map Prod.snd).head?, t.lexeme ≠ mark := by
  cases ps with
  | nil => exact ⟨nofun, nofun⟩
  | cons p qs =>
    have hp := hps p List.mem_cons_self
    constructor
    · intro t ht heq
      cases ht
      exact h ⟨p, qs, rfl, heq⟩
    · intro t ht heq
      cases ht
      rw [heq] at hp
      exact h ⟨p, qs, rfl, hmark _ hp⟩

theorem call_mirrors {expr : Reader Content} (hexpr : Mirrors rename expr (Alike rename))
    (name : String) : Mirrors rename (call expr name) (Alike rename) := by
  intro ps v rest htwins h
  cases hf : functionNamed? name with
  | none =>
    simp only [call, hf] at h
    cases h
  | some f =>
    by_cases hclosing : ∃ p qs, ps = p :: qs ∧ p.1.lexeme = .rightParen
    · obtain ⟨⟨⟨l, position⟩, ⟨m, position'⟩⟩, qs, rfl, hl⟩ := hclosing
      dsimp only at hl
      subst hl
      have hp : Twins rename .rightParen m := htwins _ List.mem_cons_self
      cases hp
      rw [List.map_cons, call_eq_nil hf] at h
      cases h
      refine ⟨[(⟨.rightParen, position⟩, ⟨.rightParen, position'⟩)], qs, .call f [], rfl, rfl,
        call_eq_nil hf position' _, .formula ?_⟩
      simp [allKeep_cons, allKeep_nil, Keeps]
    · -- Neither row starts with a closing parenthesis.
      obtain ⟨hfst, hsnd⟩ := heads_ne htwins (fun l hl => by cases hl; rfl) hclosing
      rw [call_eq_arguments hf hfst] at h
      obtain ⟨⟨args, ts⟩, hargs, h⟩ := map_eq_ok h
      cases h
      rw [List.length_map] at hargs
      obtain ⟨used, left, ws, rfl, rfl, hws, hagree⟩ :=
        arguments_mirrors hexpr _ _ _ _ htwins hargs
      refine ⟨used, left, .call f ws, rfl, rfl, ?_, .formula hagree⟩
      rw [call_eq_arguments hf hsnd, List.length_map, hws]
      rfl

/-- What is read as a name alone: no parenthesis follows it. -/
theorem atom_eq_name {expr argument : Reader Content} {name : String} {position : Nat}
    {ts : List Token} (hts : ∀ t ∈ ts.head?, t.lexeme ≠ .leftParen) :
    atom expr argument (⟨.identifier name, position⟩ :: ts) = .ok (.text name, ts) := by
  simp only [atom]
  split
  · exact absurd rfl (hts _ rfl)
  · rfl

theorem name_mirrors {expr argument : Reader Content}
    (hargument : Mirrors rename argument (Alike rename)) {s t : String}
    {position position' : Nat} {ps : List (Token × Token)} {v : Content} {rest : List Token}
    (hfunction : ∀ f, functionNamed? s = some f → t = s ∧ rename s = s)
    (htext : TextTwins rename s t) (hps : AllTwins rename ps)
    (h : atom expr argument (⟨.identifier s, position⟩ :: ps.map Prod.fst) = .ok (v, rest)) :
    ∃ used left w, (⟨.identifier s, position⟩, ⟨.identifier t, position'⟩) :: ps = used ++ left ∧
      rest = left.map Prod.fst ∧
      atom expr argument (⟨.identifier t, position'⟩ :: ps.map Prod.snd) = .ok (w, left.map Prod.snd) ∧
      Alike rename (AllKeep rename used) v w := by
  by_cases hopening : ∃ q qs, ps = q :: qs ∧ q.1.lexeme = .leftParen
  · obtain ⟨⟨⟨l', place⟩, ⟨m', place'⟩⟩, qs, rfl, hl⟩ := hopening
    dsimp only at hl
    subst hl
    have hq : Twins rename .leftParen m' := hps _ List.mem_cons_self
    cases hq
    have hqs : AllTwins rename qs := fun q hq => hps q (List.mem_cons_of_mem _ hq)
    simp only [List.map_cons, atom] at h
    cases hf : functionNamed? s with
    | none =>
      simp only [call, hf] at h
      cases h
    | some f =>
      -- The name of a function is the same in both rows, and it is not renamed.
      obtain ⟨rfl, hrename⟩ := hfunction f hf
      obtain ⟨used, left, w, rfl, rfl, hw, halike⟩ := call_mirrors hargument t _ _ _ hqs h
      refine ⟨(⟨.identifier t, position⟩, ⟨.identifier t, position'⟩) ::
        (⟨.leftParen, place⟩, ⟨.leftParen, place'⟩) :: used, left, w, rfl, rfl, ?_,
        halike.congr ?_⟩
      · simp only [List.map_cons, atom, hw]
      · simp [allKeep_cons, Keeps, hrename]
  · -- In neither row a parenthesis follows the name.
    obtain ⟨hfst, hsnd⟩ := heads_ne hps (fun l hl => by cases hl; rfl) hopening
    rw [atom_eq_name hfst] at h
    cases h
    refine ⟨[(⟨.identifier s, position⟩, ⟨.identifier t, position'⟩)], ps, .text t, rfl, rfl,
      atom_eq_name hsnd, .text ?_ htext⟩
    simp [allKeep_cons, allKeep_nil, Keeps]

theorem group_mirrors {expr argument : Reader Content} (hexpr : Mirrors rename expr (Alike rename))
    {position position' : Nat} {ps : List (Token × Token)} {v : Content} {rest : List Token}
    (hps : AllTwins rename ps)
    (h : atom expr argument (⟨.leftParen, position⟩ :: ps.map Prod.fst) = .ok (v, rest)) :
    ∃ used left w, (⟨.leftParen, position⟩, ⟨.leftParen, position'⟩) :: ps = used ++ left ∧
      rest = left.map Prod.fst ∧
      atom expr argument (⟨.leftParen, position'⟩ :: ps.map Prod.snd) = .ok (w, left.map Prod.snd) ∧
      Alike rename (AllKeep rename used) v w := by
  obtain ⟨⟨v', ts⟩, hv, hk⟩ := bind_eq_ok h
  obtain ⟨used, left, w, rfl, rfl, hw, halike⟩ := hexpr _ _ _ hps hv
  obtain ⟨-, hleft⟩ := allTwins_append.mp hps
  dsimp only at hk
  split at hk
  · rename_i place rest' hrest
    -- The closing parenthesis is its own twin, so the second row closes in the same place.
    obtain ⟨⟨⟨l', place''⟩, ⟨m', place'⟩⟩, qs, rfl, hl, rfl⟩ := List.map_eq_cons_iff.mp hrest
    cases hl
    have hq : Twins rename .rightParen m' := hleft _ List.mem_cons_self
    cases hq
    cases hk
    refine ⟨(⟨.leftParen, position⟩, ⟨.leftParen, position'⟩) :: used ++
      [(⟨.rightParen, place⟩, ⟨.rightParen, place'⟩)], qs, w, by simp, rfl, ?_,
      halike.congr ?_⟩
    · simp only [atom, hw]
      rfl
    · simp [allKeep_append, allKeep_cons, allKeep_nil, Keeps]
  · cases hk

theorem atom_mirrors {expr argument : Reader Content} (hexpr : Mirrors rename expr (Alike rename))
    (hargument : Mirrors rename argument (Alike rename)) :
    Mirrors rename (atom expr argument) (Alike rename) := by
  intro ps v rest htwins h
  cases ps with
  | nil => cases h
  | cons p ps =>
    obtain ⟨⟨l, position⟩, ⟨m, position'⟩⟩ := p
    have hp : Twins rename l m := htwins _ List.mem_cons_self
    have hps : AllTwins rename ps := fun q hq => htwins q (List.mem_cons_of_mem _ hq)
    -- Twin tokens are of one kind, so both parsers take the same branch.
    cases hp with
    | @number s t m n hm hn =>
      simp only [List.map_cons, atom, hm] at h
      cases h
      refine ⟨[(⟨.number s, position⟩, ⟨.number t, position'⟩)], ps, .number n, rfl, rfl, ?_,
        .number ?_⟩
      · simp only [List.map_cons, atom, hn]
      · simp [allKeep_cons, allKeep_nil, Keeps, hm, hn]
    | identifier hfunction htext => exact name_mirrors hargument hfunction htext hps h
    | @string s hs =>
      cases h
      refine ⟨[(⟨.string s, position⟩, ⟨.string s, position'⟩)], ps, .text s, rfl, rfl, rfl,
        .text ?_ (textTwins_self hs)⟩
      simp [allKeep_cons, allKeep_nil, Keeps, hs]
    | @boolean value hvalue =>
      cases h
      refine ⟨[(⟨.boolean value, position⟩, ⟨.boolean value, position'⟩)], ps,
        .text (booleanWord value), rfl, rfl, rfl, .text ?_ (textTwins_self hvalue)⟩
      simp [allKeep_cons, allKeep_nil, Keeps, hvalue]
    | leftParen => exact group_mirrors hexpr hps h
    | operator op => cases h
    | rightParen => cases h
    | comma => cases h

/-! ## Signs and chains of twins -/

/-- Either both rows start with a minus sign, or neither does. -/
theorem behindMinus?_twins {ps : List (Token × Token)} (htwins : AllTwins rename ps) :
    (∃ position position' left, ps = (⟨.operator (.arithmetic .subtract), position⟩,
        ⟨.operator (.arithmetic .subtract), position'⟩) :: left) ∨
      (behindMinus? (ps.map Prod.fst) = none ∧ behindMinus? (ps.map Prod.snd) = none) := by
  cases ps with
  | nil => exact .inr ⟨rfl, rfl⟩
  | cons p ps =>
    obtain ⟨⟨l, position⟩, ⟨m, position'⟩⟩ := p
    have hp : Twins rename l m := htwins _ List.mem_cons_self
    cases hp with
    | operator op =>
      cases op with
      | arithmetic op =>
        cases op with
        | subtract => exact .inl ⟨position, position', ps, rfl⟩
        | _ => exact .inr ⟨rfl, rfl⟩
      | comparison op => exact .inr ⟨rfl, rfl⟩
    | _ => exact .inr ⟨rfl, rfl⟩

theorem signed_mirrors {operand atom : Reader Content}
    (hoperand : Mirrors rename operand (Alike rename)) (hatom : Mirrors rename atom (Alike rename)) :
    Mirrors rename (signed operand atom) (Alike rename) := by
  intro ps v rest htwins h
  rcases behindMinus?_twins htwins with ⟨position, position', left, rfl⟩ | ⟨hfst, hsnd⟩
  · have hleft : AllTwins rename left := fun q hq => htwins q (List.mem_cons_of_mem _ hq)
    obtain ⟨⟨v', ts⟩, hv, h⟩ := map_eq_ok h
    cases h
    obtain ⟨used, left', w, rfl, rfl, hw, halike⟩ := hoperand _ _ _ hleft hv
    refine ⟨(⟨.operator (.arithmetic .subtract), position⟩,
      ⟨.operator (.arithmetic .subtract), position'⟩) :: used, left', negated w, rfl, rfl,
      signed_minus hw, halike.negated.congr ?_⟩
    -- Signs have no value of their own that could differ.
    simp [allKeep_cons, Keeps]
  · unfold signed at h
    rw [hfst] at h
    obtain ⟨used, left, w, rfl, rfl, hw, halike⟩ := hatom _ _ _ htwins h
    refine ⟨used, left, w, rfl, rfl, ?_, halike⟩
    unfold signed
    rw [hsnd]
    exact hw

/-- The condition under which the trees agree grows by what is read for each operand. -/
theorem chainFrom_mirrors {level : Arithmetic → Bool} {operand : Reader Content}
    (hoperand : Mirrors rename operand (Alike rename)) (n : Nat) {ps : List (Token × Token)}
    {a b v : Content} {rest : List Token} {agree : Prop} (htwins : AllTwins rename ps)
    (hab : Alike rename agree a b)
    (h : chainFrom level operand n a (ps.map Prod.fst) = .ok (v, rest)) :
    ∃ used left w, ps = used ++ left ∧ rest = left.map Prod.fst ∧
      chainFrom level operand n b (ps.map Prod.snd) = .ok (w, left.map Prod.snd) ∧
      Alike rename (agree ∧ AllKeep rename used) v w := by
  -- When the chain ends here, no more pairs have been read.
  have hnone : Alike rename (agree ∧ AllKeep rename []) a b :=
    hab.congr ⟨fun hagree => ⟨hagree, allKeep_nil⟩, And.left⟩
  -- The invariant is that the parts on the left are alike, and `agree` gathers what has been read
  -- on the way.
  induction n generalizing ps a b agree with
  | zero =>
    cases h
    exact ⟨[], ps, b, rfl, rfl, rfl, hnone⟩
  | succ n ih =>
    cases ps with
    | nil =>
      cases h
      exact ⟨[], [], b, rfl, rfl, rfl, hnone⟩
    | cons p ps =>
      obtain ⟨⟨l, position⟩, ⟨m, position'⟩⟩ := p
      have hp : Twins rename l m := htwins _ List.mem_cons_self
      have hps : AllTwins rename ps := fun q hq => htwins q (List.mem_cons_of_mem _ hq)
      cases hp with
      | operator op =>
        cases op with
        | arithmetic op =>
          by_cases hlevel : level op = true
          · simp only [List.map_cons, chainFrom] at h
            rw [if_pos hlevel] at h
            obtain ⟨⟨c, ts⟩, hc, hk⟩ := bind_eq_ok h
            obtain ⟨used, left, d, rfl, rfl, hd, hcd⟩ := hoperand _ _ _ hps hc
            obtain ⟨-, hleft⟩ := allTwins_append.mp hps
            -- The trees so far become the left operands of the next round.
            have hstep := hab.call (.aggregate op.function) hcd
            obtain ⟨more, left', w, rfl, rfl, hw, halike⟩ := ih hleft hstep hk
              (hstep.congr ⟨fun hagree => ⟨hagree, allKeep_nil⟩, And.left⟩)
            refine ⟨(⟨.operator (.arithmetic op), position⟩, ⟨.operator (.arithmetic op), position'⟩)
              :: used ++ more, left', w, by simp, rfl, ?_, halike.congr ?_⟩
            · rw [List.map_cons, chainFrom_operator hlevel hd]
              exact hw
            · simp [allKeep_append, allKeep_cons, Keeps, and_assoc]
          · rw [Bool.not_eq_true] at hlevel
            rw [List.map_cons, chainFrom_of_level_eq_false operand hlevel] at h
            cases h
            refine ⟨[], _, b, rfl, rfl, ?_, hnone⟩
            rw [List.map_cons, chainFrom_of_level_eq_false operand hlevel]
        | comparison op =>
          cases h
          exact ⟨[], _, b, rfl, rfl, rfl, hnone⟩
      | _ =>
        cases h
        exact ⟨[], _, b, rfl, rfl, rfl, hnone⟩

theorem chain_mirrors {level : Arithmetic → Bool} {operand : Reader Content}
    (hoperand : Mirrors rename operand (Alike rename)) :
    Mirrors rename (chain level operand) (Alike rename) := by
  intro ps v rest htwins h
  obtain ⟨⟨a, ts⟩, ha, hk⟩ := bind_eq_ok h
  obtain ⟨used, left, b, rfl, rfl, hb, hab⟩ := hoperand _ _ _ htwins ha
  obtain ⟨-, hleft⟩ := allTwins_append.mp htwins
  dsimp only at hk
  rw [List.length_map] at hk
  obtain ⟨more, left', w, rfl, rfl, hw, halike⟩ := chainFrom_mirrors hoperand _ hleft hab hk
  refine ⟨used ++ more, left', w, by simp, rfl, ?_, halike.congr ?_⟩
  · simp only [chain, bind, Except.bind, hb]
    rw [List.length_map]
    exact hw
  · rw [allKeep_append]

/-! ## Expressions of twins -/

/-- Either both rows start with one comparison operator, or neither starts with any. -/
theorem comparison?_twins {ps : List (Token × Token)} (htwins : AllTwins rename ps) :
    (∃ op position position' left, ps = (⟨.operator (.comparison op), position⟩,
        ⟨.operator (.comparison op), position'⟩) :: left) ∨
      (comparison? (ps.map Prod.fst) = none ∧ comparison? (ps.map Prod.snd) = none ∧
        checkNotChained (ps.map Prod.snd) = .ok ()) := by
  cases ps with
  | nil => exact Or.inr ⟨rfl, rfl, rfl⟩
  | cons p ps =>
    obtain ⟨⟨l, position⟩, ⟨m, position'⟩⟩ := p
    have hp : Twins rename l m := htwins _ List.mem_cons_self
    cases hp with
    | operator op =>
      cases op with
      | arithmetic op => exact Or.inr ⟨rfl, rfl, rfl⟩
      | comparison op => exact Or.inl ⟨op, position, position', ps, rfl⟩
    | _ => exact Or.inr ⟨rfl, rfl, rfl⟩

theorem checkNotChained_twins {ps : List (Token × Token)} (htwins : AllTwins rename ps)
    (h : checkNotChained (ps.map Prod.fst) = .ok ()) :
    checkNotChained (ps.map Prod.snd) = .ok () := by
  rcases comparison?_twins htwins with ⟨op, position, position', left, rfl⟩ | ⟨-, -, hsnd⟩
  · cases h
  · exact hsnd

theorem comparison_mirrors {sum : Reader Content} (hsum : Mirrors rename sum (Alike rename)) :
    Mirrors rename (comparison sum) (Alike rename) := by
  intro ps v rest htwins h
  obtain ⟨⟨a, ts⟩, ha, hk⟩ := bind_eq_ok h
  obtain ⟨used, left, b, rfl, rfl, hb, hab⟩ := hsum _ _ _ htwins ha
  obtain ⟨-, hleft⟩ := allTwins_append.mp htwins
  rcases comparison?_twins hleft with ⟨op, position, position', left, rfl⟩ | ⟨hfst, hsnd, -⟩
  · have hrest : AllTwins rename left := fun q hq => hleft q (List.mem_cons_of_mem _ hq)
    obtain ⟨⟨c, ts⟩, hc, hk⟩ := bind_eq_ok hk
    obtain ⟨more, left', d, rfl, rfl, hd, hcd⟩ := hsum _ _ _ hrest hc
    obtain ⟨-, hleft'⟩ := allTwins_append.mp hrest
    obtain ⟨a', ha', hk⟩ := bind_eq_ok hk
    obtain ⟨c', hc', hk⟩ := bind_eq_ok hk
    obtain ⟨⟨⟩, hcheck, hk⟩ := bind_eq_ok hk
    cases hk
    -- Where the operands of the first row are wrapped, so are those of the second.
    obtain ⟨b', hb', hab'⟩ := hab.asOperand ha'
    obtain ⟨d', hd', hcd'⟩ := hcd.asOperand hc'
    refine ⟨used ++ (⟨.operator (.comparison op), position⟩,
      ⟨.operator (.comparison op), position'⟩) :: more, left', .call (.comparison op) [b', d'],
      by simp, rfl, ?_, (hab'.call (.comparison op) hcd').congr ?_⟩
    · simp only [comparison, bind, Except.bind, hb, List.map_cons, comparison?, hd, hb', hd',
        checkNotChained_twins hleft' hcheck]
      rfl
    · simp [allKeep_append, allKeep_cons, Keeps]
  · dsimp only at hk
    rw [hfst] at hk
    cases hk
    refine ⟨used, left, b, rfl, rfl, ?_, hab⟩
    simp only [comparison, bind, Except.bind, hb, hsnd]
    rfl

/-- Expressions of twins have trees of one shape, however many frames are left. -/
theorem expression_mirrors (frames : Nat) : Mirrors rename (expression frames) (Alike rename) := by
  let mirrors (r : Reader Content) : Prop := Mirrors rename r (Alike rename)
  have herror : mirrors fun _ => .error .nestedTooDeeply := by
    intro ps v rest _ h
    cases h
  exact (readers_induct (P := mirrors) (Q := mirrors) herror herror
    (fun _ h => comparison_mirrors (chain_mirrors (chain_mirrors h)))
    (fun _ _ _ hoperand hexpr hargument =>
      signed_mirrors hoperand (atom_mirrors hexpr hargument)) frames).1

theorem withoutEquals_twins {ps : List (Token × Token)} (htwins : AllTwins rename ps) :
    ∃ qs, AllTwins rename qs ∧ (AllKeep rename ps ↔ AllKeep rename qs) ∧
      withoutEquals (ps.map Prod.fst) = qs.map Prod.fst ∧
      withoutEquals (ps.map Prod.snd) = qs.map Prod.snd := by
  cases ps with
  | nil => exact ⟨[], htwins, Iff.rfl, rfl, rfl⟩
  | cons p ps =>
    obtain ⟨⟨l, position⟩, ⟨m, position'⟩⟩ := p
    have hp : Twins rename l m := htwins _ List.mem_cons_self
    cases hp with
    | operator op =>
      -- Renaming touches names only, so a leading equals sign is dropped on both sides or on
      -- neither.
      by_cases hequal : op = .comparison .equal
      · subst hequal
        refine ⟨ps, fun q hq => htwins q (List.mem_cons_of_mem _ hq), ?_, rfl, rfl⟩
        simp [allKeep_cons, Keeps]
      · refine ⟨_, htwins, Iff.rfl, ?_, ?_⟩
        · simp only [List.map_cons, withoutEquals]
          split
          · rename_i heq
            cases heq
            exact absurd rfl hequal
          · rfl
        · simp only [List.map_cons, withoutEquals]
          split
          · rename_i heq
            cases heq
            exact absurd rfl hequal
          · rfl
    | _ => exact ⟨_, htwins, Iff.rfl, rfl, rfl⟩

theorem ofTokens_eq_of_cons {ts : List Token} {t : Token} {us : List Token}
    (h : withoutEquals ts = t :: us) :
    ofTokens ts = (do
      let (value, rest) ← expression maxFrames (t :: us)
      let tree ← asOperand value
      match rest with
      | [] => return tree
      | t :: _ => throw (.unexpectedToken t)) := by
  unfold ofTokens
  generalize withoutEquals ts = vs at h
  subst h
  rfl

/-- The tree of a row of twins is the renamed tree of the first row if and only if all numbers and
names of the row are those of the first, renamed. -/
theorem ofTokens_twins {ps : List (Token × Token)} {tree : Content} (htwins : AllTwins rename ps)
    (h : ofTokens (ps.map Prod.fst) = .ok tree) :
    ofTokens (ps.map Prod.snd) = .ok (tree.mapText rename) ↔ AllKeep rename ps := by
  obtain ⟨qs, hqs, hkeep, hfst, hsnd⟩ := withoutEquals_twins htwins
  rw [hkeep]
  cases qs with
  | nil =>
    unfold ofTokens at h
    rw [hfst] at h
    cases h
  | cons q qs =>
    rw [ofTokens_eq_of_cons hfst] at h
    rw [ofTokens_eq_of_cons hsnd]
    obtain ⟨⟨v, rest⟩, hv, hk⟩ := bind_eq_ok h
    obtain ⟨tree', htree, hk⟩ := bind_eq_ok hk
    obtain ⟨used, left, w, hused, rfl, hw, halike⟩ := expression_mirrors _ (q :: qs) _ _ hqs hv
    obtain ⟨other, hother, halike'⟩ := halike.asOperand htree
    cases left with
    | cons p left => cases hk
    | nil =>
      -- All pairs have been read, so the condition is about all of them.
      cases hk
      rw [List.append_nil] at hused
      rw [hused, halike'.iff, ← List.map_cons, hw]
      simp only [bind, Except.bind, hother, List.map_nil]
      show Except.ok other = Except.ok (tree.mapText rename) ↔ _
      rw [Except.ok.injEq]

end Formula

end Spreadsheet
