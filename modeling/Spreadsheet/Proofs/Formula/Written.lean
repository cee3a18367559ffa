import Spreadsheet.Proofs.Evaluation.Integers
import Spreadsheet.Proofs.Formula.Nodes
import Spreadsheet.Proofs.Reference.RoundTrip

/-!
# Trees that are written down

A tree of calls is written as the names of its functions with the arguments in parentheses. The text
is read back as the tree, whatever white space stands around its marks and in letters of whatever case
the names of the functions are.
-/

namespace Spreadsheet

open Text Scanned Grammar

namespace Content

inductive IsArgument : Content → Prop
  | integer {n : Int} : (Nat.toDigits 10 n.natAbs).length ≤ maxDigits → IsArgument (.integer n)
  | word {s : String} : Word s.toList → IsArgument (.text s)
  | call {f : Function} {args : List Content} :
      (∀ arg ∈ args, IsArgument arg) → IsArgument (.call f args)

mutual

/-- How an argument is written: a number in decimal, a word as it is, and a call by the name of its
function in letters of any case. -/
inductive Writes : Content → List Char → Prop
  | whole (n : Nat) : Writes (.integer n) (Nat.toDigits 10 n)
  | negative {n : Nat} : 0 < n → Writes (.integer (-n)) ('-' :: Nat.toDigits 10 n)
  | word (s : String) : Writes (.text s) s.toList
  | call {f : Function} {args : List Content} {name gap inner : List Char} :
      name.map Char.toUpper = f.name.toList → Spaces gap → WritesAll args inner →
      Writes (.call f args) (name ++ (gap ++ '(' :: (inner ++ [')'])))

inductive WritesAll : List Content → List Char → Prop
  | none {gap : List Char} : Spaces gap → WritesAll [] gap
  | last {arg : Content} {front cs back : List Char} :
      Spaces front → Writes arg cs → Spaces back → WritesAll [arg] (front ++ (cs ++ back))
  | more {arg : Content} {args : List Content} {front cs back rest : List Char} :
      Spaces front → Writes arg cs → Spaces back → args ≠ [] → WritesAll args rest →
      WritesAll (arg :: args) (front ++ (cs ++ (back ++ ',' :: rest)))

end

def WrittenAs (tree : Content) (text : String) : Prop :=
  ∃ front cs back, text.toList = front ++ (cs ++ back) ∧ Spaces front ∧ tree.Writes cs ∧ Spaces back

end Content

/-! ## Lexemes of words -/

/-- A quoted text ends at the mark behind the pairs of marks. -/
theorem takeClosing?_doubled (q : Char) (cs : List Char) :
    takeClosing? q (doubled q cs ++ [q]) = some (doubled q cs ++ [q], []) := by
  -- Marks come in pairs, so none of them closes the text, except for the one at the end.
  induction cs with
  | nil => simp [doubled, takeClosing?]
  | cons c cs ih =>
    by_cases hc : c = q
    · simp [doubled, takeClosing?, hc, ih]
    · obtain ⟨d, ds, hcons⟩ : ∃ d ds, doubled q cs ++ [q] = d :: ds :=
        List.exists_cons_of_ne_nil (by simp)
      rw [doubled, if_neg hc, List.cons_append, hcons]
      rw [hcons] at ih
      simp [takeClosing?, hc, ih]

namespace Lexeme

theorem simple_quoted {q : Char} (hq : isMark q = true) (plain : List Char) :
    (Lexeme.string (String.ofList (quote q plain))).Simple := by
  refine ⟨?_, nofun⟩
  rw [show (Lexeme.string (String.ofList (quote q plain))).text.toList = quote q plain
    from String.toList_ofList]
  refine ⟨q, doubled q plain ++ [q], rfl, ?_⟩
  rw [ofFront_of_isMark hq, string_eq_ok_iff hq]
  exact ⟨_, takeClosing?_doubled q plain, rfl, rfl⟩

theorem simple_truth (value : Bool) : (Lexeme.boolean value).Simple := by
  cases value with
  | true => exact ⟨⟨'T', ['R', 'U', 'E'], rfl, rfl⟩, nofun⟩
  | false => exact ⟨⟨'F', ['A', 'L', 'S', 'E'], rfl, rfl⟩, nofun⟩

end Lexeme

/-- A word is one lexeme, which stands for it in a tree. -/
theorem Word.exists_lexeme {s : String} (h : Word s.toList) :
    ∃ l : Lexeme, l.Simple ∧ l.text = s ∧ l.isOperand = true ∧ Atom [l] (.text s) := by
  generalize hs : s.toList = cs at h
  obtain rfl : s = String.ofList cs := by rw [← hs, String.ofList_toList]
  cases h with
  | truth value =>
    rw [String.ofList_toList]
    exact ⟨.boolean value, Lexeme.simple_truth value, rfl, rfl, .boolean value⟩
  | quoted plain hq => exact ⟨_, Lexeme.simple_quoted hq plain, rfl, rfl, .string _⟩
  | name hstart hparts hword => exact ⟨_, Lexeme.simple_name hstart hparts hword, rfl, rfl, .name _⟩

/-! ## Reading what was written -/

namespace Content

theorem IsArgument.of_integer {n : Int} (h : (Content.integer n).IsArgument) :
    (Nat.toDigits 10 n.natAbs).length ≤ maxDigits := by
  cases h with
  | integer hdigits => exact hdigits

theorem IsArgument.of_call {f : Function} {args : List Content}
    (h : (Content.call f args).IsArgument) : ∀ arg ∈ args, arg.IsArgument := by
  generalize htree : Content.call f args = tree at h
  cases h with
  | integer => cases htree
  | word => cases htree
  | call hargs =>
    obtain ⟨-, rfl⟩ := formula.inj htree
    exact hargs

/-- The digits of a number are a lexeme, which is read as the number. -/
theorem exists_lexeme_toDigits {n : Nat} (h : (Nat.toDigits 10 n).length ≤ maxDigits) :
    ∃ l : Lexeme, l.Simple ∧ l.text.toList = Nat.toDigits 10 n ∧ l.isOperand = true ∧
      Atom [l] (.integer n) := by
  have hdecimal : ∀ c ∈ Nat.toDigits 10 n, isDecimal c = true := fun c hc =>
    isDecimal_of_isPlainDigit (isPlainDigit_of_mem_toDigits hc)
  have hread := Number.read_of_isDecimal Nat.toDigits_ne_nil hdecimal h
  rw [decimalValue_toDigits] at hread
  exact ⟨_, Lexeme.simple_digits Nat.toDigits_ne_nil hdecimal, String.toList_ofList, rfl,
    .number hread⟩

mutual

/-- What an argument is written as is a row of lexemes from which the grammar derives it. -/
theorem Writes.exists_lexemes {v : Content} {cs : List Char} :
    v.Writes cs → v.IsArgument → ∃ ls, Fits cs ls v.nesting ∧ Unary ls v
  | .whole n, h => by
    obtain ⟨l, hsimple, htext, hoperand, hatom⟩ := exists_lexeme_toDigits (n := n) h.of_integer
    rw [← htext]
    exact ⟨[l], .operand hsimple hoperand _, .atom hatom⟩
  | .negative (n := n) _, h => by
    have hdigits := h.of_integer
    rw [Int.natAbs_neg, Int.natAbs_natCast] at hdigits
    obtain ⟨l, hsimple, htext, hoperand, hatom⟩ := exists_lexeme_toDigits hdigits
    rw [← htext]
    exact ⟨_, .negative hsimple hoperand _, .negative (.atom hatom)⟩
  | .word s, h => by
    cases h with
    | word hword =>
      obtain ⟨l, hsimple, htext, hoperand, hatom⟩ := hword.exists_lexeme
      rw [← htext] at hatom ⊢
      exact ⟨[l], .operand hsimple hoperand _, .atom hatom⟩
  | @Writes.call f args name _ _ hname hgap hargs, h => by
    obtain ⟨hsimple, hcapitals⟩ := Lexeme.simple_function hname
    obtain ⟨ls, hfits, hderived⟩ := hargs.exists_lexemes h.of_call
    rw [← String.toList_ofList (l := name)] at hcapitals
    have hname := Fits.operand hsimple rfl (call f args).nesting
    rw [show (Lexeme.identifier (String.ofList name)).text.toList = name
      from String.toList_ofList] at hname
    exact ⟨_, hname.append ((Fits.spaces hgap _).append hfits.group),
      .atom (.call hcapitals hderived)⟩

theorem WritesAll.exists_lexemes {vs : List Content} {cs : List Char} :
    WritesAll vs cs → (∀ v ∈ vs, v.IsArgument) →
      ∃ ls, Fits cs ls (nestingAll vs) ∧ Arguments ls vs
  | .none hgap, _ => ⟨[], .spaces hgap _, .none⟩
  | @WritesAll.last arg _ _ _ hfront hcs hback, h => by
    obtain ⟨ls, hfits, hderived⟩ := hcs.exists_lexemes (h arg List.mem_cons_self)
    have hle : arg.nesting ≤ nestingAll [arg] := Nat.le_max_left _ _
    have hall := (Fits.spaces hfront _).append ((hfits.mono hle).append (.spaces hback _))
    rw [List.nil_append, List.append_nil] at hall
    exact ⟨ls, hall, .some (.last (.single (.single (.single hderived))))⟩
  | @WritesAll.more arg args _ _ _ _ hfront hcs hback hne hrest, h => by
    obtain ⟨harg, hargs⟩ := List.forall_mem_cons.mp h
    obtain ⟨ls, hfits, hderived⟩ := hcs.exists_lexemes harg
    obtain ⟨ms, hfits', hderived'⟩ := hrest.exists_lexemes hargs
    -- Each argument is read in the room of the deepest one.
    have hle : arg.nesting ≤ nestingAll (arg :: args) := Nat.le_max_left _ _
    have hle' : nestingAll args ≤ nestingAll (arg :: args) := Nat.le_max_right _ _
    have hall := (Fits.spaces hfront _).append ((hfits.mono hle).append
      ((Fits.spaces hback _).append ((Fits.comma _).append (hfits'.mono hle'))))
    cases hderived' with
    | none => exact absurd rfl hne
    | some hitems =>
      exact ⟨_, hall, .some (.more (.single (.single (.single hderived))) hitems)⟩

end

/-! ## Every tree can be written -/

theorem exists_writesAll {args : List Content} (h : ∀ arg ∈ args, ∃ cs, arg.Writes cs) :
    ∃ cs, WritesAll args cs := by
  have hempty : Spaces [] := List.forall_mem_nil _
  -- The last argument is followed by no comma.
  induction args with
  | nil => exact ⟨[], .none hempty⟩
  | cons arg args ih =>
    obtain ⟨⟨cs, hcs⟩, hargs⟩ := List.forall_mem_cons.mp h
    obtain ⟨rest, hrest⟩ := ih hargs
    by_cases hne : args = []
    · subst hne
      exact ⟨_, .last hempty hcs hempty⟩
    · exact ⟨_, .more hempty hcs hempty hne hrest⟩

theorem IsArgument.exists_writes {v : Content} (h : v.IsArgument) : ∃ cs, v.Writes cs := by
  induction h with
  | @integer n _ =>
    rcases Int.lt_or_le n 0 with hneg | hpos
    · have heq : n = -((-n).toNat : Int) := by omega
      rw [heq]
      exact ⟨_, .negative (by omega)⟩
    · have heq : n = (n.toNat : Int) := by omega
      rw [heq]
      exact ⟨_, .whole _⟩
  | @word s _ => exact ⟨_, .word s⟩
  | @call f args _ ih =>
    obtain ⟨inner, hinner⟩ := exists_writesAll ih
    exact ⟨_, .call f.map_toUpper_name (List.forall_mem_nil _) hinner⟩

end Content

namespace Formula

/-- A tree of calls can be written down, and every text that it is written as is read as the tree, also
behind an equals sign. -/
theorem parse_of_writtenAs {f : Function} {args : List Content}
    (hargs : ∀ arg ∈ args, arg.IsArgument)
    (hnesting : 9 * (Content.call f args).nesting < allowance) :
    (∃ text, (Content.call f args).WrittenAs text) ∧
      ∀ text, (Content.call f args).WrittenAs text →
        parse text = .ok (.call f args) ∧ parse ("=" ++ text) = .ok (.call f args) := by
  have hargument : (Content.call f args).IsArgument := .call hargs
  constructor
  · obtain ⟨cs, hcs⟩ := hargument.exists_writes
    refine ⟨String.ofList cs, [], cs, [], ?_, List.forall_mem_nil _, hcs, List.forall_mem_nil _⟩
    rw [String.toList_ofList, List.append_nil, List.nil_append]
  · rintro text ⟨front, cs, back, htext, hfront, hcs, hback⟩
    obtain ⟨ls, hfits, hderived⟩ := hcs.exists_lexemes hargument
    have hall := (Fits.spaces hfront _).append (hfits.append (.spaces hback _))
    rw [← htext, List.nil_append, List.append_nil] at hall
    exact parse_of_fits hall hnesting (.mk (.single (.single (.single hderived))) (.tree _ _))

def oddArguments : List Content :=
  [.integer (-12), .text "\"a,)\"\"\"", .call .choice []]

/-- The comma and the parenthesis in the string are no marks of the call. -/
theorem parse_of_writtenAs_sample :
    (Content.call (.aggregate .sum) oddArguments).WrittenAs " sUm( -12 ,\"a,)\"\"\",If\t( )) " ∧
      parse "= sUm( -12 ,\"a,)\"\"\",If\t( )) " = .ok (.call (.aggregate .sum) oddArguments) := by
  have hquoted : Content.IsArgument (.text "\"a,)\"\"\"") :=
    .word (.quoted (q := '"') ['a', ',', ')', '"'] rfl)
  have harguments : ∀ arg ∈ oddArguments, arg.IsArgument := by
    refine List.forall_mem_cons.mpr ⟨.integer (by decide), List.forall_mem_cons.mpr ⟨hquoted, ?_⟩⟩
    exact List.forall_mem_singleton.mpr (.call (List.forall_mem_nil _))
  have hspaces : ∀ cs : List Char, cs.all isSpace = true → Spaces cs := fun cs =>
    List.all_eq_true.mp
  have hchoice : Content.Writes (.call .choice []) "If\t( )".toList :=
    @Content.Writes.call _ _ ['I', 'f'] ['\t'] [' '] rfl (hspaces _ rfl)
      (.none (hspaces _ rfl))
  have hinner : Content.WritesAll oddArguments " -12 ,\"a,)\"\"\",If\t( )".toList :=
    @Content.WritesAll.more _ _ [' '] _ [' '] _ (hspaces _ rfl) (.negative (n := 12) (by decide))
      (hspaces _ rfl) nofun
      (@Content.WritesAll.more _ _ [] _ [] _ (hspaces _ rfl) (.word _) (hspaces _ rfl) nofun
        (@Content.WritesAll.last _ [] _ [] (hspaces _ rfl) hchoice (hspaces _ rfl)))
  have hwritten : (Content.call (.aggregate .sum) oddArguments).WrittenAs
      " sUm( -12 ,\"a,)\"\"\",If\t( )) " :=
    ⟨[' '], _, [' '], rfl, hspaces _ rfl,
      @Content.Writes.call _ _ ['s', 'U', 'm'] [] _ rfl (hspaces _ rfl) hinner, hspaces _ rfl⟩
  exact ⟨hwritten, ((parse_of_writtenAs harguments (by decide)).2 _ hwritten).2⟩

end Formula

end Spreadsheet
