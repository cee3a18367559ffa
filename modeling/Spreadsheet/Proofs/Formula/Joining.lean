import Spreadsheet.Proofs.Formula.Positions
import Spreadsheet.Proofs.Formula.Spans

/-!
# Formulas written anew

The tokens of a formula can be written one after the other with white space between them. What comes
out has the same tokens, since each of them is read again from its own text and white space joins none
of them. So it is the same formula, or it is none for the same reason.
-/

namespace Spreadsheet

open Text Scanned Grammar

/-! ## Texts with gaps between them -/

def joined (gaps : Nat → String) : List String → String
  | [] => ""
  | [s] => s
  | s :: t :: texts => s ++ gaps 0 ++ joined (fun i => gaps (i + 1)) (t :: texts)

theorem joined_const (gap : String) (texts : List String) :
    joined (fun _ => gap) texts = gap.intercalate texts := by
  induction texts with
  | nil => exact String.intercalate_nil.symm
  | cons s texts ih =>
    cases texts with
    | nil => exact String.intercalate_singleton.symm
    | cons t texts => rw [String.intercalate_cons_cons, ← ih, joined]

structure IsGap (gap : String) : Prop where
  ne_nil : gap.toList ≠ []
  spaces : ∀ c ∈ gap.toList, isSpace c = true

theorem isGap_of_all {gap : String} (hne : gap.toList ≠ []) (h : gap.toList.all isSpace = true) :
    IsGap gap :=
  ⟨hne, List.all_eq_true.mp h⟩

theorem IsGap.apart {gap : String} (h : IsGap gap) {l : Lexeme} {spelling : List Char}
    (hspells : l.Spells spelling) (rest : List Char) : l.Apart (gap.toList ++ rest) := by
  intro c hc
  rw [List.head?_append_of_ne_nil _ h.ne_nil] at hc
  exact joins_of_isSpace hspells (h.spaces c (List.mem_of_mem_head? hc))

theorem cut_joined {gaps : Nat → String} {ls : List Lexeme} (hgaps : ∀ i, IsGap (gaps i))
    (hls : ∀ l ∈ ls, l.Spells l.text.toList) :
    Cut (joined gaps (ls.map Lexeme.text)).toList ls := by
  -- The gaps are counted from the front, so without the first text they start one later.
  induction ls generalizing gaps with
  | nil => exact .nil
  | cons l ls ih =>
    obtain ⟨hl, hrest⟩ := List.forall_mem_cons.mp hls
    cases ls with
    | nil =>
      have hcut := Cut.lexeme hl (fun c hc => by cases hc) .nil
      rwa [List.append_nil] at hcut
    | cons m ls =>
      -- What follows the lexeme starts with the first gap.
      have hcut := (ih (fun i => hgaps (i + 1)) hrest).spaces_append (hgaps 0).spaces
      have happend := Cut.lexeme hl ((hgaps 0).apart hl _) hcut
      rwa [← String.toList_append, ← String.toList_append, ← String.append_assoc] at happend

/-! ## Lexemes by their texts -/

/-- A lexeme is read again from its text, also a truth value that was not in capital letters. -/
theorem Lexeme.Spells.spells_text {l : Lexeme} {spelling : List Char} (h : l.Spells spelling) :
    l.Spells l.text.toList := by
  cases l with
  | boolean value =>
    cases value with
    | true => exact ⟨'T', ['R', 'U', 'E'], rfl, rfl⟩
    | false => exact ⟨'F', ['A', 'L', 'S', 'E'], rfl, rfl⟩
  | _ =>
    rw [← h.writtenAs.eq_text nofun]
    exact h

theorem Lexed.spells_text {cs : List Char} {ls : List Lexeme} (h : Lexed cs ls) :
    ∀ l ∈ ls, l.Spells l.text.toList := by
  -- Each lexeme spells what it was read from, and thus its own text.
  induction h with
  | nil => exact nofun
  | space _ _ ih => exact ih
  | lexeme hs _ ih => exact List.forall_mem_cons.mpr ⟨(ofFront_spells hs).spells_text, ih⟩

theorem Token.spells_of_scan {text : String} {ts : List Token} (h : Token.scan text = .ok ts) :
    ∀ l ∈ lexemes ts, l.Spells l.text.toList :=
  (Token.lexed_of_scan h).spells_text

/-! ## Formulas -/

namespace Formula

structure SameFormula (text text' : String) : Prop where
  lexemes_eq : (Token.scan text').map lexemes = (Token.scan text).map lexemes
  parse_eq :
    (parse text').mapError ParseError.errorClass = (parse text).mapError ParseError.errorClass

theorem sameFormula_of_cut {text text' : String} {ts : List Token} (h : Token.scan text = .ok ts)
    (hcut : Cut text'.toList (lexemes ts)) : SameFormula text text' := by
  obtain ⟨us, hus, hlexemes⟩ := Token.scan_of_cut hcut
  refine ⟨?_, ?_⟩
  · rw [h, hus]
    exact congrArg Except.ok hlexemes
  · rw [parse_eq_ofTokens h, parse_eq_ofTokens hus]
    exact errorClass_eq_of_lexemes hlexemes

/-- A text that is cut into tokens is the same formula as their texts with a space between each two of
them, and with any other white space. -/
theorem sameFormula_joined {text : String} {ts : List Token} (h : Token.scan text = .ok ts) :
    SameFormula text (" ".intercalate ((lexemes ts).map Lexeme.text)) ∧
      ∀ gaps : Nat → String, (∀ i, IsGap (gaps i)) →
        SameFormula text (joined gaps ((lexemes ts).map Lexeme.text)) := by
  have hlexed : Lexed (trim text.toList) (lexemes ts) := Token.lexed_of_scanFrom (Nat.le_refl _) h
  have hjoined : ∀ gaps : Nat → String, (∀ i, IsGap (gaps i)) →
      SameFormula text (joined gaps ((lexemes ts).map Lexeme.text)) := fun gaps hgaps =>
    sameFormula_of_cut h (cut_joined hgaps hlexed.spells_text)
  refine ⟨?_, hjoined⟩
  rw [← joined_const]
  exact hjoined _ fun _ => isGap_of_all (by decide) rfl

theorem sameFormula_joined_sample :
    SameFormula "=a1<>1.e+5+true" "= a1 <> 1.e+5 + TRUE" ∧
      SameFormula "=a1<>1.e+5+true" "=\ta1  <>  1.e+5  +  TRUE" := by
  have hscan : Token.scan "=a1<>1.e+5+true" =
      .ok [⟨.operator (.comparison .equal), 0⟩, ⟨.identifier "a1", 1⟩,
        ⟨.operator (.comparison .notEqual), 3⟩, ⟨.number "1.e+5", 5⟩,
        ⟨.operator (.arithmetic .add), 10⟩, ⟨.boolean true, 11⟩] := by rfl
  have htab : IsGap "\t" := isGap_of_all (by decide) rfl
  have hspaces : IsGap "  " := isGap_of_all (by decide) rfl
  obtain ⟨hspace, hgaps⟩ := sameFormula_joined hscan
  exact ⟨hspace, hgaps (fun i => if i = 0 then "\t" else "  ") fun i => by
    split
    · exact htab
    · exact hspaces⟩

end Formula

end Spreadsheet
