import Spreadsheet.Evaluation
import Spreadsheet.Proofs.Formula.Cutting
import Spreadsheet.Proofs.Formula.Words
import Spreadsheet.Proofs.Number.NaN
import Spreadsheet.Proofs.Reference.Spelling

/-!
# The nodes of trees that were read

The tree of a formula applies the fifteen functions alone. Its arguments are trees, numbers, words
and, under a literal of its own, truth values. No number is `nan`. The words are those for truth
values, quoted texts and names, none of which counts as a number.
-/

namespace Spreadsheet

open Text Scanned

/-! ## Numbers that were read -/

namespace Double

theorem isNaN_round (negative : Bool) (num den : Nat) : (round negative num den).isNaN = false := by
  unfold round
  split <;> rfl

theorem isNaN_neg (x : Double) : x.neg.isNaN = x.isNaN := by
  cases x <;> rfl

end Double

theorem Decimal.isNaN_toDouble (d : Decimal) : d.toDouble.isNaN = false := by
  unfold toDouble
  dsimp only
  split
  · rfl
  · split
    · rfl
    · split
      · exact Double.isNaN_round _ _ _
      · exact Double.isNaN_round _ _ _

namespace Number

theorem isNaN_neg (n : Number) : n.neg.isNaN = n.isNaN := by
  cases n with
  | integer k => rfl
  | double x => exact Double.isNaN_neg x

theorem isNaN_of_read {text : String} {n : Number} (h : read text = .ok n) : n.isNaN = false := by
  unfold read at h
  split at h
  · obtain ⟨x, hx, rfl⟩ := map_eq_ok h
    unfold readDouble at hx
    split at hx
    · rename_i d _
      cases hx
      exact d.isNaN_toDouble
    · cases hx
  · obtain ⟨k, -, rfl⟩ := map_eq_ok h
    rfl

end Number

/-! ## Words -/

/-- The words that a tree has as texts. In a quoted text the mark stands in pairs only. -/
inductive Word : List Char → Prop
  | truth (value : Bool) : Word (booleanWord value).toList
  | quoted {q : Char} (plain : List Char) : isMark q = true → Word (quote q plain)
  | name {c : Char} {cs : List Char} :
      isNameStart c = true → (∀ d ∈ cs, isNamePart d = true) →
      ofBooleanWord? (String.ofList (capitals (c :: cs))) = none → Word (c :: cs)

/-- A closing mark is found behind pairs of marks. -/
theorem exists_doubled_of_takeClosing? {q : Char} {cs text rest : List Char}
    (h : takeClosing? q cs = some (text, rest)) : ∃ plain, text = doubled q plain ++ [q] := by
  fun_induction takeClosing? q cs generalizing text rest with
  | case1 => cases h
  | case2 =>
    cases h
    exact ⟨[], rfl⟩
  | case3 c hc => cases h
  | case4 cs ih =>
    obtain ⟨⟨t, r⟩, ht, hpair⟩ := Option.map_eq_some_iff.mp h
    cases hpair
    obtain ⟨plain, rfl⟩ := ih ht
    refine ⟨q :: plain, ?_⟩
    rw [doubled, if_pos rfl, List.cons_append, List.cons_append]
  | case5 d cs hd =>
    cases h
    exact ⟨[], rfl⟩
  | case6 c d cs hc ih =>
    obtain ⟨⟨t, r⟩, ht, hpair⟩ := Option.map_eq_some_iff.mp h
    cases hpair
    obtain ⟨plain, rfl⟩ := ih ht
    refine ⟨c :: plain, ?_⟩
    rw [doubled, if_neg hc, List.cons_append]

/-- A name starts with none of the characters that start numbers. -/
theorem isNumeral_of_isNameStart {c : Char} {cs : List Char} (h : isNameStart c = true)
    (hdigit : isDigit c = false) : isNumeral (c :: cs) = false := by
  have hdecimal : isDecimal c = false := eq_false_of_imp isDigit_of_isDecimal hdigit
  have hpart := isNamePart_of_isNameStart h
  have hnewline : c ≠ '\n' := ne_of_isNamePart hpart (by decide)
  have hpoint : c ≠ '.' := ne_of_isNamePart hpart (by decide)
  have hplus : c ≠ '+' := ne_of_isNamePart hpart (by decide)
  have hminus : c ≠ '-' := ne_of_isNamePart hpart (by decide)
  obtain ⟨ds, hds⟩ := dropFinalNewline_cons hnewline cs
  have hsign : splitSign (c :: ds) = (false, c :: ds) := by
    unfold splitSign
    split
    · rename_i heq
      exact absurd (List.cons.inj heq).1 hminus
    · rename_i heq
      exact absurd (List.cons.inj heq).1 hplus
    · rfl
  have hfraction : splitFraction (c :: ds) = ([], c :: ds) := by
    unfold splitFraction
    split
    · rename_i heq
      exact absurd (List.cons.inj heq).1 hpoint
    · rfl
  -- Without a digit before or behind a point there is no number.
  simp only [isNumeral, hds, Decimal.ofSpelling?, hsign, List.takeWhile_cons, List.dropWhile_cons,
    hdecimal, Bool.false_eq_true, if_false, hfraction, List.isEmpty_nil,
    Bool.and_self, if_true, Option.isSome_none]

/-- What stands for a lexeme in a tree is a word, and it counts as no number. -/
theorem Lexeme.Spells.word {l : Lexeme} {spelling : List Char} {s : String} (h : l.Spells spelling)
    (hs : l.word? = some s) : Word s.toList ∧ isNumeral s.toList = false := by
  rcases h.cases with ⟨q, text, rfl, hq, hclosing, rfl⟩ | ⟨-, rfl⟩ |
    ⟨c, cs, rfl, hstart, hdigit, hparts, rfl⟩ | hsymbol
  · obtain ⟨plain, rfl⟩ := exists_doubled_of_takeClosing? hclosing
    cases hs
    rw [String.toList_ofList]
    exact ⟨.quoted plain hq, isNumeral_of_isMark hq⟩
  · cases hs
  · rcases nameLexeme_cases (c :: cs) with ⟨value, hname, -⟩ | ⟨hname, hnone⟩
    · rw [hname] at hs
      cases hs
      exact ⟨.truth value, by cases value <;> decide⟩
    · rw [hname] at hs
      cases hs
      rw [Bool.or_eq_false_iff] at hdigit
      rw [String.toList_ofList]
      exact ⟨.name hstart (List.forall_mem_cons.mp hparts).2 hnone,
        isNumeral_of_isNameStart hstart hdigit.1⟩
  · have hoperand := isOperand_of_symbol hsymbol
    cases l with
    | identifier | boolean | string => cases hoperand
    | _ => cases hs

theorem Grid.isNumber_token {s : String} (hreference : isReference s.toList = false)
    (hnumeral : isNumeral s.toList = false) (g : Grid) (depth : Int) :
    (g.token depth s).isNumber = false := by
  unfold token tokenWith
  dsimp only
  rw [hreference, hnumeral, if_neg Bool.false_ne_true, if_neg Bool.false_ne_true]
  split
  · rfl
  · split <;> rfl

/-! ## Nodes -/

inductive IsNode (name : Json) (args : List Content) : (tree : Content) → Prop
  | root : IsNode name args (.formula name args)
  | inside {name' : Json} {args' : List Content} {a : Content} :
      a ∈ args' → IsNode name args a → IsNode name args (.formula name' args')

inductive IsReadArgument : Content → Prop
  | tree (name : Json) (args : List Content) : IsReadArgument (.formula name args)
  | number {n : Number} : n.isNaN = false → IsReadArgument (.number n)
  | word {s : String} : Word s.toList → IsReadArgument (.text s)
  | truth (value : Bool) : IsReadArgument (.bool value)

structure IsReadNode (name : Json) (args : List Content) : Prop where
  name_eq : ∃ f ∈ Function.all, name = .text f.name
  argument : ∀ a ∈ args, IsReadArgument a
  /-- A truth value is the only argument of a literal. -/
  truth : ∀ value, .bool value ∈ args →
    name = .text Function.literal.name ∧ args = [.bool value]
  blank : .blank ∉ args
  /-- No text counts as a number, and only a reference can come to one. -/
  text : ∀ s, .text s ∈ args → isNumeral s.toList = false ∧
    (isReference s.toList = false → ∀ (g : Grid) depth, (g.token depth s).isNumber = false)

theorem IsNode.texts_subset {name : Json} {args : List Content} {tree : Content} {s : String}
    (h : IsNode name args tree) (hs : .text s ∈ args) : s ∈ tree.texts := by
  -- From the root down to the node. The texts of an argument are among those of its tree.
  induction h with
  | root => exact Content.texts_subset_textsOfAll hs List.mem_cons_self
  | inside ha _ ih => exact Content.texts_subset_textsOfAll ha ih

/-! ## The trees of the grammar -/

namespace Grammar

inductive Built : Content → Prop
  | number {n : Number} : n.isNaN = false → Built (.number n)
  | text (s : String) : Built (.text s)
  | truth (value : Bool) : Built (.literal (.bool value))
  | call (f : Function) {args : List Content} : (∀ a ∈ args, Built a) → Built (.call f args)

theorem built_pair (f : Function) {a b : Content} (ha : Built a) (hb : Built b) :
    Built (.call f [a, b]) :=
  .call f (List.forall_mem_cons.mpr ⟨ha, List.forall_mem_cons.mpr ⟨hb, nofun⟩⟩)

theorem built_literal {v : Content} (hv : Built v) : Built (.literal v) :=
  .call .literal (List.forall_mem_cons.mpr ⟨hv, nofun⟩)

theorem Operand.built {v tree : Content} (h : Operand v tree) (hv : Built v) : Built tree := by
  cases h with
  | tree name args => exact hv
  | truth value => exact .truth value
  | reference _ => exact built_literal hv
  | quoted _ => exact built_literal hv
  | value _ _ => exact built_literal hv

mutual

theorem Comparative.built {ls : List Lexeme} {v : Content} : Comparative ls v → Built v
  | .single h => h.built
  | .pair _ hls hms ha hb => built_pair _ (ha.built hls.built) (hb.built hms.built)

theorem Additive.built {ls : List Lexeme} {v : Content} : Additive ls v → Built v
  | .single h => h.built
  | .step _ _ hls hms => built_pair _ hls.built hms.built

theorem Multiplicative.built {ls : List Lexeme} {v : Content} : Multiplicative ls v → Built v
  | .single h => h.built
  | .step _ _ hls hms => built_pair _ hls.built hms.built

theorem Unary.built {ls : List Lexeme} {v : Content} : Unary ls v → Built v
  | .atom h => h.built
  | @Unary.negative _ n h => by
    -- The sign of a number does not make it `nan`.
    have hn : Built (.number n) := h.built
    cases hn with
    | number hn => exact .number (n.isNaN_neg.trans hn)
  | .minus h _ => built_pair _ (.number rfl) h.built

theorem Atom.built {ls : List Lexeme} {v : Content} : Atom ls v → Built v
  | .number h => .number (Number.isNaN_of_read h)
  | .string s => .text s
  | .boolean value => .text (booleanWord value)
  | .name s => .text s
  | .group h => h.built
  | .call f hargs => .call _ hargs.built

theorem Arguments.built {ls : List Lexeme} {args : List Content} :
    Arguments ls args → ∀ a ∈ args, Built a
  | .none => nofun
  | .some h => h.built

theorem Items.built {ls : List Lexeme} {args : List Content} : Items ls args → ∀ a ∈ args, Built a
  | .last h => List.forall_mem_cons.mpr ⟨h.built, nofun⟩
  | .more hls hms => List.forall_mem_cons.mpr ⟨hls.built, hms.built⟩

end

theorem Whole.built {ls : List Lexeme} {tree : Content} : Whole ls tree → Built tree
  | .mk h hoperand => hoperand.built h.built

/-- A node of what the grammar builds has the name of a function. Its arguments are built in turn,
unless it is a literal with a truth value. -/
theorem Built.of_isNode {name : Json} {args : List Content} {tree : Content} (h : Built tree)
    (hnode : IsNode name args tree) : ∃ f : Function, name = .text f.name ∧
      ((f = .literal ∧ ∃ value, args = [.bool value]) ∨ ∀ a ∈ args, Built a) := by
  -- What is built has built arguments, except for a literal, inside which there is no node.
  induction hnode with
  | root =>
    cases h with
    | truth value => exact ⟨.literal, rfl, Or.inl ⟨rfl, value, rfl⟩⟩
    | call f hargs => exact ⟨f, rfl, Or.inr hargs⟩
  | inside ha hnode ih =>
    cases h with
    | truth value =>
      obtain rfl := List.mem_singleton.mp ha
      cases hnode
    | call f hargs => exact ih (hargs _ ha)

theorem isReadNode_truth (value : Bool) :
    IsReadNode (.text Function.literal.name) [.bool value] where
  name_eq := ⟨.literal, Function.mem_all _, rfl⟩
  argument := List.forall_mem_cons.mpr ⟨.truth value, nofun⟩
  truth value' h := by
    obtain ⟨⟩ := List.mem_singleton.mp h
    exact ⟨rfl, rfl⟩
  blank h := by cases List.mem_singleton.mp h
  text s h := by cases List.mem_singleton.mp h

theorem isReadNode_of_built (f : Function) {args : List Content} (hargs : ∀ a ∈ args, Built a)
    (hwords : ∀ s, .text s ∈ args → Word s.toList ∧ isNumeral s.toList = false) :
    IsReadNode (.text f.name) args where
  name_eq := ⟨f, Function.mem_all f, rfl⟩
  argument a ha := by
    cases hargs a ha with
    | number hn => exact .number hn
    | text s => exact .word (hwords s ha).1
    | truth value => exact .tree _ _
    | call f _ => exact .tree _ _
  truth value h := by cases hargs _ h
  blank h := by cases hargs _ h
  text s hs :=
    ⟨(hwords s hs).2, fun hreference => Grid.isNumber_token hreference (hwords s hs).2⟩

end Grammar

namespace Formula

open Grammar

/-- Every text of a tree is a word. -/
theorem word_of_parse {text : String} {tree : Content} (h : parse text = .ok tree) {s : String}
    (hs : s ∈ tree.texts) : Word s.toList ∧ isNumeral s.toList = false := by
  obtain ⟨ts, -, hts, hcut⟩ := cut_of_parse h
  obtain ⟨l, hl, hword⟩ := mem_words.mp (texts_subset_of_ofTokens hts hs)
  obtain ⟨spelling, hspells, -⟩ := hcut.exists_spells l hl
  exact hspells.word hword

/-- Every node of the tree of a formula applies one of the fifteen functions to trees, numbers other
than `nan` and words, or it is a literal with a truth value. -/
theorem isReadNode_of_parse {text : String} {tree : Content} (h : parse text = .ok tree) :
    ∀ name args, IsNode name args tree → IsReadNode name args := by
  intro name args hnode
  obtain ⟨ts, -, hts⟩ := parse_eq_ok h
  obtain ⟨f, rfl, hargs⟩ := (ofTokens_sound hts).built.of_isNode hnode
  rcases hargs with ⟨rfl, value, rfl⟩ | hargs
  · exact isReadNode_truth value
  · exact isReadNode_of_built f hargs fun s hs => word_of_parse h (hnode.texts_subset hs)

/-- A truth value stays a word in a sum, and a comparison puts it under a literal. -/
theorem isReadNode_sample :
    parse "=-Sum('1''', _x, tRUE) < false" =
        .ok (.call (.comparison .less)
          [.call (.aggregate .multiply)
              [.integer (-1), .call (.aggregate .sum) [.text "'1'''", .text "_x", .text "TRUE"]],
            .literal (.bool false)]) ∧
      IsReadNode (.text "SUM") [.text "'1'''", .text "_x", .text "TRUE"] ∧
      IsReadNode (.text "LITERAL") [.bool false] := by
  have hscan : Token.scan "=-Sum('1''', _x, tRUE) < false" =
      .ok [⟨.operator (.comparison .equal), 0⟩, ⟨.operator (.arithmetic .subtract), 1⟩,
        ⟨.identifier "Sum", 2⟩, ⟨.leftParen, 5⟩, ⟨.string "'1'''", 6⟩, ⟨.comma, 11⟩,
        ⟨.identifier "_x", 13⟩, ⟨.comma, 15⟩, ⟨.boolean true, 17⟩, ⟨.rightParen, 21⟩,
        ⟨.operator (.comparison .less), 23⟩, ⟨.boolean false, 25⟩] := by rfl
  have hparse : parse "=-Sum('1''', _x, tRUE) < false" =
      .ok (.call (.comparison .less)
        [.call (.aggregate .multiply)
            [.integer (-1), .call (.aggregate .sum) [.text "'1'''", .text "_x", .text "TRUE"]],
          .literal (.bool false)]) := by
    rw [parse_eq_ofTokens hscan]
    rfl
  refine ⟨hparse, isReadNode_of_parse hparse _ _ ?_, isReadNode_of_parse hparse _ _ ?_⟩
  · exact .inside List.mem_cons_self (.inside (List.mem_cons_of_mem _ List.mem_cons_self) .root)
  · exact .inside (List.mem_cons_of_mem _ List.mem_cons_self) .root

end Formula

end Spreadsheet
