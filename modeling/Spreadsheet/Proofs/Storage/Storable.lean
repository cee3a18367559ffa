import Spreadsheet.Proofs.Formula.Words
import Spreadsheet.Proofs.Json.Writable
import Spreadsheet.Storage

/-!
# Trees that can be stored

A tree that comes from the text of a formula or from a stored text consists of what data can hold. Its
names are data of any kind, and its whole numbers are short enough to be written, since they were read.
-/

namespace Spreadsheet

open Json Formula Grammar

namespace Content

/-! ## What can be stored -/

mutual

/-- Whether a content can stand in a stored tree and is read as the same content again. A table does
not, since it is read as a tree. -/
def Storable : Content → Prop
  | .blank => True
  | .bool _ => True
  | .number n => n.IsShort
  | .text _ => True
  | .list items => WritableItems items
  | .formula name args => Writable name ∧ StorableAll args
  | _ => False

def StorableAll : List Content → Prop
  | [] => True
  | arg :: args => Storable arg ∧ StorableAll args

end

/-! ## Trees that were read -/

theorem writable_of_lookup {key : String} {value : Json} {entries : List (String × Json)}
    (h : WritableEntries entries) (hlookup : entries.lookup key = some value) : Writable value := by
  -- The look-up ends at the first entry with the key.
  induction entries with
  | nil => cases hlookup
  | cons e entries ih =>
    rw [List.lookup_cons] at hlookup
    split at hlookup
    · cases hlookup
      exact h.1
    · exact ih h.2 hlookup

theorem storableAll_map_text {α : Type} (f : α → String) (xs : List α) :
    StorableAll (xs.map fun x => .text (f x)) := by
  induction xs with
  | nil => exact trivial
  | cons x xs ih => exact ⟨trivial, ih⟩

theorem storable_tree {name : Option Json} {args : Except ReadError (List Content)} {c : Content}
    (hname : ∀ n, name = some n → Writable n) (hargs : ∀ cs, args = .ok cs → StorableAll cs)
    (h : (match name with
      | some n => args >>= fun cs => Except.ok (Content.formula n cs)
      | none => .error .unnamedTree) = .ok c) : c.Storable := by
  cases name with
  | none => cases h
  | some n =>
    obtain ⟨cs, hcs, h⟩ := bind_eq_ok h
    cases h
    exact ⟨hname n rfl, hargs cs hcs⟩

mutual

/-- A tree that was read from data that can be written can be stored. -/
theorem storable_of_ofTable {all : List (String × Json)} (hall : WritableEntries all) :
    ∀ {entries : List (String × Json)} {c : Content}, WritableEntries entries →
      ofTable all entries = .ok c → c.Storable
  | [], c, _, h => by
    unfold ofTable at h
    have hargs : ∀ cs, (.ok [] : Except ReadError (List Content)) = .ok cs → StorableAll cs := by
      rintro cs ⟨⟩
      exact trivial
    exact storable_tree (fun _ => writable_of_lookup hall) hargs h
  | (key, value) :: rest, c, hentries, h => by
    unfold ofTable at h
    split at h
    · exact storable_tree (fun _ => writable_of_lookup hall)
        (fun cs hcs => storableAll_of_argumentsOf hentries.1 hcs) h
    · exact storable_of_ofTable hall hentries.2 h

theorem storableAll_of_argumentsOf : ∀ {j : Json} {args : List Content}, Writable j →
    argumentsOf j = .ok args → StorableAll args
  | .list items, args, hj, h => storableAll_of_argumentsOfItems hj h
  | .text s, args, _, h => by
    cases h
    exact storableAll_map_text String.singleton s.toList
  | .table entries, args, _, h => by
    cases h
    exact storableAll_map_text Prod.fst entries
  | .null, _, _, h | .bool _, _, _, h | .number _, _, _, h => by cases h

theorem storableAll_of_argumentsOfItems : ∀ {items : List Json} {args : List Content},
    WritableItems items → argumentsOfItems items = .ok args → StorableAll args
  | [], args, _, h => by
    cases h
    exact trivial
  | item :: items, args, hitems, h => by
    unfold argumentsOfItems at h
    obtain ⟨arg, harg, h⟩ := bind_eq_ok h
    obtain ⟨others, hothers, h⟩ := bind_eq_ok h
    cases h
    exact ⟨storable_of_argumentOf hitems.1 harg,
      storableAll_of_argumentsOfItems hitems.2 hothers⟩

theorem storable_of_argumentOf : ∀ {j : Json} {c : Content}, Writable j →
    argumentOf j = .ok c → c.Storable
  | .null, c, _, h => by
    cases h
    exact trivial
  | .bool _, c, _, h => by
    cases h
    exact trivial
  | .number _, c, hj, h => by
    cases h
    exact hj
  | .text _, c, _, h => by
    cases h
    exact trivial
  | .list _, c, hj, h => by
    cases h
    exact hj
  | .table entries, c, hj, h => storable_of_ofTable hj.2 hj.2 h

end

theorem ofStored_formula {s : String} (h : s ≠ "") :
    ofStored "fx" (some s) = match Json.read s with
      | .ok data => ofData data
      | .error e => .error (.ofJson e) := by
  have hempty : s.isEmpty = false := by simpa using h
  show (if s.isEmpty = true then _ else _) = _
  rw [hempty]
  rfl

theorem storable_of_ofStored {s : String} {tree : Content}
    (h : ofStored "fx" (some s) = .ok tree) (htree : tree.isFormula = true) : tree.Storable := by
  by_cases hempty : s = ""
  · subst hempty
    cases h
    cases htree
  · rw [ofStored_formula hempty] at h
    split at h
    · rename_i data hdata
      have hwritable := writable_of_read hdata
      cases data with
      | table entries => exact storable_of_ofTable hwritable.2 hwritable.2 h
      | _ => cases h
    · cases h

end Content

/-! ## Trees of formulas -/

theorem isShort_of_readInteger {text : String} {n : Int} (h : readInteger text = .ok n) :
    (Number.integer n).IsShort := by
  unfold readInteger at h
  dsimp only at h
  split at h
  · cases h
  · split at h
    · cases h
    · split at h
      · cases h
      · rename_i hlength _
        cases h
        exact isShort_decimalValue _ (Nat.not_lt.mp hlength)

theorem Number.isShort_of_read {text : String} {n : Number} (h : Number.read text = .ok n) :
    n.IsShort := by
  unfold Number.read at h
  split at h
  · obtain ⟨x, -, rfl⟩ := map_eq_ok h
    exact trivial
  · obtain ⟨k, hk, rfl⟩ := map_eq_ok h
    exact isShort_of_readInteger hk

theorem Number.IsShort.neg {n : Number} (h : n.IsShort) : n.neg.IsShort := by
  cases n with
  | integer k =>
    show decimalLength (-k).natAbs ≤ maxDigits
    rw [Int.natAbs_neg]
    exact h
  | double x => exact trivial

namespace Grammar

open Content

theorem storable_call (f : Function) {args : List Content} (h : StorableAll args) :
    (Content.call f args).Storable :=
  ⟨trivial, h⟩

theorem storable_pair (f : Function) {a b : Content} (ha : a.Storable) (hb : b.Storable) :
    (Content.call f [a, b]).Storable :=
  storable_call f ⟨ha, hb, trivial⟩

theorem Operand.storable {v tree : Content} (h : Operand v tree) (hv : v.Storable) :
    tree.Storable := by
  cases h with
  | tree name args => exact hv
  | truth value => exact storable_call .literal ⟨trivial, trivial⟩
  | reference _ => exact storable_call .literal ⟨trivial, trivial⟩
  | quoted _ => exact storable_call .literal ⟨trivial, trivial⟩
  | value _ _ => exact storable_call .literal ⟨hv, trivial⟩

theorem storable_minusOne : (Content.integer (-1)).Storable := by
  show decimalLength 1 ≤ maxDigits
  decide

mutual

/-- Each tree of the grammar can be stored, since its numbers were read. -/
theorem Comparative.storable {ls : List Lexeme} {v : Content} : Comparative ls v → v.Storable
  | .single h => h.storable
  | .pair op hls hms ha hb => storable_pair _ (ha.storable hls.storable) (hb.storable hms.storable)

theorem Additive.storable {ls : List Lexeme} {v : Content} : Additive ls v → v.Storable
  | .single h => h.storable
  | .step op _ hls hms => storable_pair _ hls.storable hms.storable

theorem Multiplicative.storable {ls : List Lexeme} {v : Content} :
    Multiplicative ls v → v.Storable
  | .single h => h.storable
  | .step op _ hls hms => storable_pair _ hls.storable hms.storable

theorem Unary.storable {ls : List Lexeme} {v : Content} : Unary ls v → v.Storable
  | .atom h => h.storable
  | .negative h => Number.IsShort.neg h.storable
  | .minus h _ => storable_pair _ storable_minusOne h.storable

theorem Atom.storable {ls : List Lexeme} {v : Content} : Atom ls v → v.Storable
  | .number h => Number.isShort_of_read h
  | .string _ => trivial
  | .boolean _ => trivial
  | .name _ => trivial
  | .group h => h.storable
  | .call _ hargs => storable_call _ hargs.storable

theorem Arguments.storable {ls : List Lexeme} {args : List Content} :
    Arguments ls args → StorableAll args
  | .none => trivial
  | .some h => h.storable

theorem Items.storable {ls : List Lexeme} {args : List Content} :
    Items ls args → StorableAll args
  | .last h => ⟨h.storable, trivial⟩
  | .more hls hms => ⟨hls.storable, hms.storable⟩

end

theorem Whole.storable {ls : List Lexeme} {tree : Content} : Whole ls tree → tree.Storable
  | .mk h hoperand => hoperand.storable h.storable

end Grammar

theorem Content.storable_of_parse {text : String} {tree : Content} (h : parse text = .ok tree) :
    tree.Storable ∧ tree.isFormula = true := by
  unfold parse at h
  split at h
  · have hwhole := ofTokens_sound h
    exact ⟨hwhole.storable, hwhole.isFormula⟩
  · cases h

end Spreadsheet
