import Spreadsheet.Proofs.Json.RoundTrip
import Spreadsheet.Proofs.Storage.Storable

/-!
# Formulas are stored and read back

A tree that can be stored is written as a table of its name and its arguments, and the same tree is
read from this text. So a formula does not change when it is stored, whether it was parsed or had been
read from a stored text itself.
-/

namespace Spreadsheet

open Json Formula

namespace Content

/-! ## Writing and reading -/

structure StoredAs (c : Content) (j : Json) (cs : List Char) : Prop where
  stored_eq : c.stored = .ok cs
  stores : Stores j cs
  argumentOf_eq : argumentOf j = .ok c

structure StoredAllAs (cs : List Content) (items : List Json) (parts : List (List Char)) : Prop where
  storedAll_eq : storedAll cs = .ok parts
  writeItems_eq : writeItems? items = some parts
  stores : List.Forall₂ Stores items parts
  argumentsOfItems_eq : argumentsOfItems items = .ok cs

def treeData (name : Json) (items : List Json) : Json :=
  .table [("name", name), ("args", .list items)]

theorem storedAs_tree {name : Json} {args : List Content} {items : List Json}
    {nameText : List Char} {parts : List (List Char)} (hname : Stores name nameText)
    (hargs : StoredAllAs args items parts) :
    StoredAs (.formula name args) (treeData name items) (storedTree nameText parts) where
  stored_eq := by
    show (do
      let name ← writable (write? name)
      let args ← storedAll args
      return storedTree name args) = _
    rw [hname.write_eq, hargs.storedAll_eq]
    rfl
  stores := by
    have hlist := stores_list hargs.writeItems_eq hargs.stores
    -- The two keys are written in this order and are distinct, which reading back a table asks for.
    have hwrite : writeEntries? [("name", name), ("args", .list items)] =
        some [writeEntry "name" nameText, writeEntry "args" (writeList parts)] := by
      unfold writeEntries? writeEntries? writeEntries?
      rw [hname.write_eq, hlist.write_eq]
      rfl
    have hkeys : ["name", "args"].Nodup := by decide
    exact stores_table hwrite
      (.cons ⟨nameText, rfl, hname⟩ (.cons ⟨writeList parts, rfl, hlist⟩ .nil)) hkeys
  argumentOf_eq := by
    show (argumentsOfItems items >>= fun args => Except.ok (Content.formula name args)) = _
    rw [hargs.argumentsOfItems_eq]
    rfl

mutual

theorem Storable.exists_storedAs : ∀ {c : Content}, c.Storable → ∃ j cs, StoredAs c j cs
  | .blank, _ => ⟨.null, ['n', 'u', 'l', 'l'], rfl, stores_null, rfl⟩
  | .bool value, _ => ⟨.bool value, writeBool value, rfl, stores_bool value, rfl⟩
  | .number n, h => by
    obtain ⟨cs, hstores⟩ := exists_stores_number h
    have hwrite : writeNumber? n = some cs := hstores.write_eq
    exact ⟨.number n, cs, congrArg writable hwrite, hstores, rfl⟩
  | .text s, _ => ⟨.text s, writeText s, rfl, stores_text s, rfl⟩
  | .list items, h => by
    obtain ⟨cs, hstores⟩ := Writable.exists_stores (j := .list items) h
    exact ⟨.list items, cs, congrArg writable hstores.write_eq, hstores, rfl⟩
  | .formula name args, h => by
    obtain ⟨nameText, hname⟩ := Writable.exists_stores h.1
    obtain ⟨items, parts, hargs⟩ := StorableAll.exists_storedAllAs h.2
    exact ⟨_, _, storedAs_tree hname hargs⟩
  | .moment _, h | .table _, h | .decimal _, h | .arrayFormula _, h | .richText _, h
  | .record _, h => h.elim

theorem StorableAll.exists_storedAllAs : ∀ {cs : List Content}, StorableAll cs →
    ∃ items parts, StoredAllAs cs items parts
  | [], _ => ⟨[], [], rfl, rfl, .nil, rfl⟩
  | c :: cs, h => by
    obtain ⟨item, part, hc⟩ := Storable.exists_storedAs h.1
    obtain ⟨items, parts, hcs⟩ := StorableAll.exists_storedAllAs h.2
    refine ⟨item :: items, part :: parts, ?_, ?_, .cons hc.stores hcs.stores, ?_⟩
    · unfold storedAll
      rw [hc.stored_eq, hcs.storedAll_eq]
      rfl
    · unfold writeItems?
      rw [hc.stores.write_eq, hcs.writeItems_eq]
      rfl
    · unfold argumentsOfItems
      rw [hc.argumentOf_eq, hcs.argumentsOfItems_eq]
      rfl

end

theorem ofData_of_argumentOf {j : Json} {tree : Content} (h : argumentOf j = .ok tree)
    (htree : tree.isFormula = true) : ofData j = .ok tree := by
  cases j with
  | table entries => exact h
  | _ =>
    cases h
    cases htree

/-- A tree that can be stored is shown as a text from which it is read. -/
theorem Storable.exists_display {tree : Content} (h : tree.Storable)
    (htree : tree.isFormula = true) :
    ∃ s, tree.display = .ok s ∧ ofStored "fx" (some s) = .ok tree := by
  obtain ⟨j, cs, hstored⟩ := h.exists_storedAs
  have hne : String.ofList cs ≠ "" := by
    obtain ⟨c, ds, rfl, -⟩ := hstored.stores.starts
    intro hempty
    have htoList := congrArg String.toList hempty
    rw [String.toList_ofList] at htoList
    cases htoList
  refine ⟨String.ofList cs, ?_, ?_⟩
  · cases tree with
    | formula name args => exact congrArg (Except.map String.ofList) hstored.stored_eq
    | _ => cases htree
  · rw [ofStored_formula hne, hstored.stores.read_eq_ok]
    exact ofData_of_argumentOf hstored.argumentOf_eq htree

/-- A tree that was parsed, or read from a stored text of whatever shape, is shown as a text, and the
same tree is read from this text. -/
theorem ofStored_display {text : String} {tree : Content}
    (h : parse text = .ok tree ∨
      (ofStored "fx" (some text) = .ok tree ∧ tree.isFormula = true)) :
    ∃ s, tree.display = .ok s ∧ ofStored "fx" (some s) = .ok tree := by
  rcases h with hparse | ⟨hread, htree⟩
  · obtain ⟨hstorable, htree⟩ := storable_of_parse hparse
    exact hstorable.exists_display htree
  · exact (storable_of_ofStored hread htree).exists_display htree

def oddText : String :=
  "\x7b\"args\": [[1, \x7b\"x\": true\x7d], -0.0, \x7b\"name\": null\x7d], \"name\": [\"IF\"]\x7d"

def oddTree : Content :=
  .formula (.list [.text "IF"])
    [.list [.number (.integer 1), .table [("x", .bool true)]], .number (.double (.zero true)),
      .formula .null []]

theorem display_oddTree :
    (ofStored "fx" (some oddText) = .ok oddTree ∧
      ∃ s, oddTree.display = .ok s ∧ ofStored "fx" (some s) = .ok oddTree) ∧
    (parse "-A1" = .ok (negated (.text "A1")) ∧
      ∃ s, (negated (.text "A1")).display = .ok s ∧
        ofStored "fx" (some s) = .ok (negated (.text "A1"))) := by
  have hread : ofStored "fx" (some oddText) = .ok oddTree := by
    rw [ofStored_formula (by decide)]
    unfold oddText Json.read
    simp only [String.reduceToList]
    rfl
  have hparse : parse "-A1" = .ok (negated (.text "A1")) := rfl
  exact ⟨⟨hread, ofStored_display (.inr ⟨hread, rfl⟩)⟩, hparse, ofStored_display (.inl hparse)⟩

end Content

end Spreadsheet
