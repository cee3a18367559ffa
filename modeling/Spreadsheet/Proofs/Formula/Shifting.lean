import Spreadsheet.Proofs.Formula.MovedText
import Spreadsheet.Proofs.Formula.Twins

/-!
# Formulas that move

Moving the references of a formula moves the references in its tree and leaves all else alone, unless
something inside a number or a name is taken for a reference. `parse_shiftReferences_iff` says when.
-/

namespace Spreadsheet

open Text Scanned Grammar Piece

variable {rows columns : Int}

/-! ## Numbers that can be read -/

def Lexeme.Readable (l : Lexeme) : Prop :=
  ∀ s, l = .number s → ∃ n, Number.read s = .ok n

theorem Lexeme.readable_of_ne {l : Lexeme} (h : ∀ s, l ≠ .number s) : l.Readable :=
  fun s hs => absurd hs (h s)

namespace Grammar

theorem readable_join {ls ms : List Lexeme} {m : Lexeme} (hls : ∀ l ∈ ls, l.Readable)
    (hm : ∀ s, m ≠ .number s) (hms : ∀ l ∈ ms, l.Readable) : ∀ l ∈ ls ++ m :: ms, l.Readable :=
  List.forall_mem_append.mpr
    ⟨hls, List.forall_mem_cons.mpr ⟨Lexeme.readable_of_ne hm, hms⟩⟩

theorem readable_cons {ls : List Lexeme} {m : Lexeme} (hm : ∀ s, m ≠ .number s)
    (hls : ∀ l ∈ ls, l.Readable) : ∀ l ∈ m :: ls, l.Readable :=
  List.forall_mem_cons.mpr ⟨Lexeme.readable_of_ne hm, hls⟩

mutual

theorem Comparative.readable {ls : List Lexeme} {v : Content} :
    Comparative ls v → ∀ l ∈ ls, l.Readable
  | .single h => h.readable
  | .pair _ hls hms _ _ => readable_join hls.readable nofun hms.readable

theorem Additive.readable {ls : List Lexeme} {v : Content} : Additive ls v → ∀ l ∈ ls, l.Readable
  | .single h => h.readable
  | .step _ _ hls hms => readable_join hls.readable nofun hms.readable

theorem Multiplicative.readable {ls : List Lexeme} {v : Content} :
    Multiplicative ls v → ∀ l ∈ ls, l.Readable
  | .single h => h.readable
  | .step _ _ hls hms => readable_join hls.readable nofun hms.readable

theorem Unary.readable {ls : List Lexeme} {v : Content} : Unary ls v → ∀ l ∈ ls, l.Readable
  | .atom h => h.readable
  | .negative h => readable_cons nofun h.readable
  | .minus h _ => readable_cons nofun h.readable

theorem Atom.readable {ls : List Lexeme} {v : Content} : Atom ls v → ∀ l ∈ ls, l.Readable
  | .number hn => List.forall_mem_singleton.mpr fun s hs => by
    cases hs
    exact ⟨_, hn⟩
  | .string _ => readable_cons nofun nofun
  | .boolean _ => readable_cons nofun nofun
  | .name _ => readable_cons nofun nofun
  | .group h => readable_join (readable_cons nofun h.readable) nofun nofun
  | .call _ h =>
    readable_join (readable_cons nofun (readable_cons nofun h.readable)) nofun nofun

theorem Arguments.readable {ls : List Lexeme} {args : List Content} :
    Arguments ls args → ∀ l ∈ ls, l.Readable
  | .none => nofun
  | .some h => h.readable

theorem Items.readable {ls : List Lexeme} {args : List Content} :
    Items ls args → ∀ l ∈ ls, l.Readable
  | .last h => h.readable
  | .more hls hms => readable_join hls.readable nofun hms.readable

end

theorem Whole.readable {ls : List Lexeme} {tree : Content} :
    Whole ls tree → ∀ l ∈ ls, l.Readable
  | .mk h _ => h.readable

end Grammar

theorem Formula.readable_of_ofTokens {ts : List Token} {tree : Content}
    (h : ofTokens ts = .ok tree) : ∀ l ∈ lexemes ts, l.Readable := by
  apply of_lexemes_withoutEquals (P := fun ls => ∀ l ∈ ls, l.Readable) _ (ofTokens_sound h).readable
  intro ls hls
  exact readable_cons nofun hls

/-! ## What becomes of the texts of a tree -/

def movedToken (rows columns : Int) (s : String) : String :=
  if isReference s.toList then
    match shiftReferences s rows columns with
    | .ok moved => moved
    | .error _ => s
  else s

theorem movedToken_of_not_isReference {s : String} (h : isReference s.toList = false) :
    movedToken rows columns s = s := by
  unfold movedToken
  rw [h]
  rfl

theorem movedToken_of_moves {s moved : String} (hs : isReference s.toList = true)
    (h : Moves rows columns (split s.toList) moved.toList) :
    movedToken rows columns s = moved := by
  simp only [movedToken, hs, if_true, h.shiftReferences_eq]

theorem any_isDecimal_of_isReference {cs : List Char} (h : isReference cs = true) :
    cs.any isDecimal = true := by
  obtain ⟨r, hform, hspelling⟩ := exists_wellFormed_of_isReference h
  obtain ⟨d, hmem, hd⟩ := hform.exists_decimal
  rw [hspelling] at hmem
  rw [List.any_eq_true]
  refine ⟨d, ?_, hd⟩
  unfold dropFinalNewline at hmem
  split at hmem
  · exact (List.dropLast_sublist cs).subset hmem
  · exact hmem

theorem isReference_of_any_isDecimal {cs : List Char} (h : cs.any isDecimal = false) :
    isReference cs = false :=
  eq_false_of_imp any_isDecimal_of_isReference h

theorem isReference_booleanWord (value : Bool) : isReference (booleanWord value).toList = false :=
  isReference_of_any_isDecimal (any_isDecimal_booleanWord value)

/-- A name that is a reference is spelled like one, and is one piece. -/
theorem split_of_isReference {cs : List Char} (h : isReference cs = true)
    (hcs : ∀ c ∈ cs, isNamePart c = true) :
    ∃ r, r.WellFormed ∧ cs = r.spelling ∧ split cs = [.reference r] := by
  obtain ⟨r, hform, hspelling⟩ := exists_wellFormed_of_isReference h
  -- A line break at the end is no part of a name.
  have hline : dropFinalNewline cs = cs := by
    unfold dropFinalNewline
    rw [if_neg]
    intro hlast
    have hpart := hcs '\n' (List.mem_of_getLast? hlast)
    exact absurd hpart (by decide)
  rw [hline] at hspelling
  subst hspelling
  exact ⟨r, hform, rfl, split_spelling hform⟩

theorem isReference_of_moves {cs out : List Char} (h : isReference cs = true)
    (hcs : ∀ c ∈ cs, isNamePart c = true) (hmoves : Moves rows columns (split cs) out) :
    isReference out = true := by
  obtain ⟨r, -, -, hsplit⟩ := split_of_isReference h hcs
  rw [hsplit] at hmoves
  cases hmoves with
  | reference hshifted hvalid hrest =>
    cases hrest
    obtain ⟨m, hform, rfl⟩ := Reference.exists_wellFormed_of_shifted hshifted hvalid
    rw [List.append_nil]
    exact isReference_spelling hform

/-! ## Lexemes that move are twins -/

theorem Lexeme.Spells.identifier {s : String} {spelling : List Char}
    (h : (Lexeme.identifier s).Spells spelling) :
    s.toList = spelling ∧ ∀ c ∈ spelling, isNamePart c = true := by
  rcases h.cases with ⟨_, _, -, -, -, hl⟩ | ⟨-, hl⟩ | ⟨_, _, -, -, -, hparts, hl⟩ | hl
  · cases hl
  · cases hl
  · rcases nameLexeme_cases spelling with ⟨value, hname, -⟩ | ⟨hname, -⟩
    · rw [hname] at hl
      cases hl
    · rw [hname] at hl
      cases hl
      exact ⟨String.toList_ofList, hparts⟩
  · cases isOperand_of_symbol hl

theorem isQuoted_of_isNamePart {cs : List Char} (h : ∀ c ∈ cs, isNamePart c = true) :
    isQuoted cs = false := by
  cases cs with
  | nil => rfl
  | cons c cs =>
    have hmark := isMark_of_isNamePart (h c List.mem_cons_self)
    simp [isQuoted, unquoted?, hmark]

theorem ofBooleanWord?_of_any_isDecimal {s : String} (h : s.toList.any isDecimal = true) :
    ofBooleanWord? s = none := by
  rw [ofBooleanWord?_eq_none_iff]
  intro value hs
  rw [hs, any_isDecimal_booleanWord] at h
  cases h

theorem Formula.asOperand_of_isReference {s : String} (h : isReference s.toList = true) :
    asOperand (.text s) = .ok (.literal (.text s)) := by
  simp only [asOperand, ofBooleanWord?_of_any_isDecimal (any_isDecimal_of_isReference h), h,
    Bool.true_or, if_true]

open Formula

/-- A name and what it becomes stand for operands together. -/
theorem textTwins_of_moves {s moved : String} (hparts : ∀ c ∈ s.toList, isNamePart c = true)
    (h : Moves rows columns (split s.toList) moved.toList) :
    TextTwins (movedToken rows columns) s moved := by
  by_cases hs : isReference s.toList = true
  · -- A reference moves to a reference, and both are operands as they are.
    intro w hw
    rw [asOperand_of_isReference hs] at hw
    cases hw
    refine ⟨.text s, .text moved, rfl,
      asOperand_of_isReference (isReference_of_moves hs hparts h), ?_⟩
    simp
  · rw [Bool.not_eq_true] at hs
    have hself : movedToken rows columns s = s := movedToken_of_not_isReference hs
    intro w hw
    -- Of the other names only the truth values are operands.
    rcases asOperand_sound hw with _ | value | hreference | hquoted | ⟨-, htext⟩
    · have hmoved : moved = booleanWord value := by
        rw [← String.ofList_toList (s := moved),
          h.eq_of_any_isDecimal (any_isDecimal_booleanWord value), String.ofList_toList]
      rw [hmoved]
      exact textTwins_self hself _ hw
    · rw [hs] at hreference
      cases hreference
    · rw [isQuoted_of_isNamePart hparts] at hquoted
      cases hquoted
    · exact absurd rfl (htext s)

/-- A lexeme that can be read and what it becomes are twins. -/
theorem twins_of_movesTo {l m : Lexeme} {spelling : List Char} (hspells : l.Spells spelling)
    (h : l.MovesTo rows columns m) (hl : l.Readable) (hm : m.Readable) :
    Twins (movedToken rows columns) l m := by
  cases l with
  | number s =>
    obtain ⟨moved, rfl, -⟩ := h
    obtain ⟨n, hn⟩ := hl s rfl
    obtain ⟨n', hn'⟩ := hm moved rfl
    exact .number hn hn'
  | identifier s =>
    obtain ⟨moved, rfl, hmoves⟩ := h
    obtain ⟨hlist, hparts⟩ := hspells.identifier
    refine .identifier ?_ (textTwins_of_moves (by rw [hlist]; exact hparts) hmoves)
    -- The name of a function has no digits, so it neither moves nor is a reference.
    intro f hf
    have hdecimal := any_isDecimal_of_function (functionNamed?_eq_some_iff.mp hf)
    refine ⟨?_, movedToken_of_not_isReference (isReference_of_any_isDecimal hdecimal)⟩
    rw [← String.ofList_toList (s := moved), hmoves.eq_of_any_isDecimal hdecimal,
      String.ofList_toList]
  | string s =>
    obtain rfl := h
    obtain ⟨rfl, q, text, rfl, hq, -⟩ := hspells.string
    refine .string (movedToken_of_not_isReference ?_)
    rw [String.toList_ofList]
    exact isReference_of_isMark hq
  | boolean value =>
    obtain rfl := h
    exact .boolean (movedToken_of_not_isReference (isReference_booleanWord value))
  | operator op =>
    obtain rfl := h
    exact .operator op
  | leftParen =>
    obtain rfl := h
    exact .leftParen
  | rightParen =>
    obtain rfl := h
    exact .rightParen
  | comma =>
    obtain rfl := h
    exact .comma

/-! ## When everything else stays -/

/-- Whether a lexeme that is no reference comes through when it moves by itself: a number as a number
of the same value, and a name as it is. -/
def Lexeme.ComesThrough (rows columns : Int) : Lexeme → Prop
  | .number s => ∃ moved, shiftReferences s rows columns = .ok moved ∧
      (Token.scan moved).map lexemes = .ok [.number moved] ∧ Number.read moved = Number.read s
  | .identifier s => isReference s.toList = false → shiftReferences s rows columns = .ok s
  | _ => True

instance Lexeme.decidableComesThrough (rows columns : Int) :
    (l : Lexeme) → Decidable (l.ComesThrough rows columns)
  | .number s => inferInstanceAs (Decidable (∃ moved, shiftReferences s rows columns = .ok moved ∧
      (Token.scan moved).map lexemes = .ok [.number moved] ∧ Number.read moved = Number.read s))
  | .identifier s => inferInstanceAs (Decidable
      (isReference s.toList = false → shiftReferences s rows columns = .ok s))
  | .operator _ | .leftParen | .rightParen | .comma | .boolean _ | .string _ => isTrue trivial

theorem Lexeme.Spells.cut {l : Lexeme} {spelling : List Char} (h : l.Spells spelling) :
    Cut spelling [l] := by
  have hcut := Cut.lexeme h (fun c hc => by cases hc) Cut.nil
  rw [List.append_nil] at hcut
  exact hcut

theorem Lexeme.Spells.scan {s : String} (h : (Lexeme.number s).Spells s.toList) :
    (Token.scan s).map lexemes = .ok [.number s] := by
  obtain ⟨ts, hts, hls⟩ := Token.scan_of_cut h.cut
  rw [hts]
  exact congrArg Except.ok hls

/-- A lexeme comes through if and only if what it becomes has its value or its moved name. -/
theorem comesThrough_iff_keeps {l m : Lexeme} {spelling : List Char} (hspells : l.Spells spelling)
    (h : l.MovesTo rows columns m)
    (hstay : ∀ s, m = .number s → (Lexeme.number s).Spells s.toList) :
    l.ComesThrough rows columns ↔ Keeps (movedToken rows columns) l m := by
  cases l with
  | number s =>
    obtain ⟨moved, rfl, hmoves⟩ := h
    constructor
    · rintro ⟨moved', hmoved', -, hread⟩
      rw [hmoves.shiftReferences_eq] at hmoved'
      cases hmoved'
      exact hread
    · intro hread
      exact ⟨moved, hmoves.shiftReferences_eq, (hstay moved rfl).scan, hread⟩
  | identifier s =>
    obtain ⟨moved, rfl, hmoves⟩ := h
    show (isReference s.toList = false → shiftReferences s rows columns = .ok s) ↔
      moved = movedToken rows columns s
    by_cases hs : isReference s.toList = true
    · rw [movedToken_of_moves hs hmoves, hs]
      simp
    · rw [Bool.not_eq_true] at hs
      rw [movedToken_of_not_isReference hs, hmoves.shiftReferences_eq]
      simp [hs]
  | _ =>
    obtain rfl := h
    exact Iff.rfl

theorem numbersStay_of_comesThrough {cs : List Char} {ls : List Lexeme} (hcut : Cut cs ls)
    (h : ∀ l ∈ ls, l.ComesThrough rows columns) : NumbersStay rows columns ls := by
  intro s hs moved hmoves
  obtain ⟨moved', hmoved', hscan, -⟩ := h _ hs
  rw [hmoves.shiftReferences_eq] at hmoved'
  cases hmoved'
  obtain ⟨spelling, hspells, -⟩ := hcut.exists_spells _ hs
  obtain ⟨rfl, -⟩ := hspells.number
  -- The moved number alone is a row of one lexeme, so it has stayed one.
  have hlexed : Lexed moved.toList [.number moved] := by
    cases hts : Token.scan moved with
    | error e =>
      rw [hts] at hscan
      cases hscan
    | ok ts =>
      rw [hts] at hscan
      have hls : lexemes ts = [.number moved] := Except.ok.inj hscan
      have htrim := Token.lexed_of_scan hts
      rw [hls] at htrim
      exact (cut_trim_iff.mp (htrim.cut (List.isChain_singleton _))).lexed
  have hself : (Lexeme.number (String.ofList spelling)).Spells
      (String.ofList spelling).toList := by
    rw [String.toList_ofList]
    exact hspells
  exact hself.cut.numbersStay hmoves nofun hlexed (List.isChain_singleton _) _
    List.mem_cons_self moved hmoves

/-- Two rows of tokens with related lexemes are a row of pairs. -/
theorem exists_pairs {R : Lexeme → Lexeme → Prop} {ts us : List Token}
    (h : List.Forall₂ R (lexemes ts) (lexemes us)) :
    ∃ ps : List (Token × Token), ps.map Prod.fst = ts ∧ ps.map Prod.snd = us ∧
      ∀ p ∈ ps, R p.1.lexeme p.2.lexeme := by
  obtain ⟨hlength, hzip⟩ := List.forall₂_iff_zip.mp
    (List.forall₂_map_left_iff.mp (List.forall₂_map_right_iff.mp h))
  exact ⟨ts.zip us, List.map_fst_zip (Nat.le_of_eq hlength),
    List.map_snd_zip (Nat.le_of_eq hlength.symm), fun p hp => hzip hp⟩

namespace Formula

/-- A formula whose numbers stay numbers is cut like its tokens, moved one by one. -/
theorem exists_pairs_of_moves {text moved : String} {ts : List Token}
    (hcut : Cut text.toList (lexemes ts))
    (hmoves : Moves rows columns (split text.toList) moved.toList)
    (hstay : NumbersStay rows columns (lexemes ts)) :
    ∃ ps : List (Token × Token), ps.map Prod.fst = ts ∧
      Token.scan moved = .ok (ps.map Prod.snd) ∧
      ∀ p ∈ ps, p.1.lexeme.MovesTo rows columns p.2.lexeme := by
  obtain ⟨ms, hmcut, hforall⟩ := hcut.moves hmoves nofun hstay
  obtain ⟨us, hscan, rfl⟩ := Token.scan_of_cut hmcut
  obtain ⟨ps, hfst, rfl, hps⟩ := exists_pairs hforall
  exact ⟨ps, hfst, hscan, hps⟩

/-- What the tokens of a formula become, if all of them can be read. -/
theorem parse_moved_iff {moved : String} {tree : Content} {ps : List (Token × Token)}
    {cs : List Char} (hcut : Cut cs (lexemes (ps.map Prod.fst)))
    (htree : ofTokens (ps.map Prod.fst) = .ok tree)
    (hscan : Token.scan moved = .ok (ps.map Prod.snd))
    (hps : ∀ p ∈ ps, p.1.lexeme.MovesTo rows columns p.2.lexeme)
    (hstay : NumbersStay rows columns (lexemes (ps.map Prod.fst)))
    (hreadable : ∀ p ∈ ps, p.2.lexeme.Readable) :
    parse moved = .ok (tree.mapText (movedToken rows columns)) ↔
      ∀ l ∈ lexemes (ps.map Prod.fst), l.ComesThrough rows columns := by
  have hmem : ∀ p ∈ ps, p.1.lexeme ∈ lexemes (ps.map Prod.fst) := fun p hp =>
    List.mem_map_of_mem (List.mem_map_of_mem hp)
  -- The tokens are twins, so the trees differ in no more than some of them do.
  have htwins : AllTwins (movedToken rows columns) ps := by
    intro p hp
    obtain ⟨spelling, hspells, -⟩ := hcut.exists_spells _ (hmem p hp)
    exact twins_of_movesTo hspells (hps p hp) (readable_of_ofTokens htree _ (hmem p hp))
      (hreadable p hp)
  have hkeeps : ∀ p ∈ ps, (p.1.lexeme.ComesThrough rows columns ↔
      Keeps (movedToken rows columns) p.1.lexeme p.2.lexeme) := by
    intro p hp
    obtain ⟨spelling, hspells, -⟩ := hcut.exists_spells _ (hmem p hp)
    refine comesThrough_iff_keeps hspells (hps p hp) fun s hs => ?_
    have hmovedTo := hps p hp
    rw [hs] at hmovedTo
    obtain ⟨s', hs', hmoves⟩ := hmovedTo.of_number
    exact hstay s' (by rw [← hs']; exact hmem p hp) s hmoves
  rw [parse_eq_ofTokens hscan, ofTokens_twins htwins htree]
  constructor
  · intro hall l hl
    obtain ⟨t, ht, rfl⟩ := List.mem_map.mp hl
    obtain ⟨p, hp, rfl⟩ := List.mem_map.mp ht
    exact (hkeeps p hp).mpr (hall p hp)
  · intro hall p hp
    exact (hkeeps p hp).mp (hall _ (hmem p hp))

/-- A formula moves with its references if all of its numbers and of its names that are no references
come through when they move by themselves. -/
theorem parse_moved_of_comesThrough {text moved : String} {tree : Content}
    (hparse : parse text = .ok tree) (hmoves : Moves rows columns (split text.toList) moved.toList)
    (hall : ∀ ts, Token.scan text = .ok ts → ∀ l ∈ lexemes ts, l.ComesThrough rows columns) :
    parse moved = .ok (tree.mapText (movedToken rows columns)) := by
  obtain ⟨ts, hscan, htree, hcut⟩ := cut_of_parse hparse
  have hthrough := hall ts hscan
  have hstay := numbersStay_of_comesThrough hcut hthrough
  obtain ⟨ps, rfl, hps, hmovesTo⟩ := exists_pairs_of_moves hcut hmoves hstay
  refine (parse_moved_iff hcut htree hps hmovesTo hstay ?_).mpr hthrough
  -- A number that comes through is read as the number it was.
  intro p hp s hs
  have hmovedTo := hmovesTo p hp
  have hin : p.1.lexeme ∈ lexemes (ps.map Prod.fst) :=
    List.mem_map_of_mem (List.mem_map_of_mem hp)
  rw [hs] at hmovedTo
  obtain ⟨s', hs', hmoves'⟩ := hmovedTo.of_number
  rw [hs'] at hin
  obtain ⟨moved', hmoved', -, hread⟩ := hthrough _ hin
  rw [hmoves'.shiftReferences_eq] at hmoved'
  cases hmoved'
  obtain ⟨n, hn⟩ := readable_of_ofTokens htree _ hin s' rfl
  exact ⟨n, by rw [hread, hn]⟩

/-- Moving a formula whose references stay on the sheet gives a formula whose tree has the moved
references and is otherwise the same, if and only if all of its numbers and of its names that are no
references come through when they move by themselves. -/
theorem parse_shiftReferences_iff {text moved : String} {tree : Content} {rows columns : Int}
    (hparse : parse text = .ok tree) (hmoved : shiftReferences text rows columns = .ok moved)
    (hvalid : ∀ r, Piece.reference r ∈ Piece.split text.toList →
      r.shifted rows columns ≠ .ok invalidReference) :
    parse moved = .ok (tree.mapText (movedToken rows columns)) ↔
      ∀ ts, Token.scan text = .ok ts → ∀ l ∈ lexemes ts, l.ComesThrough rows columns := by
  have hmoves := (shiftReferences_eq_ok_iff_of_valid hvalid).mp hmoved
  obtain ⟨ts, hscan, htree, hcut⟩ := cut_of_parse hparse
  constructor
  · -- The moved text is a formula, so its lexemes follow each other, and the numbers have stayed.
    intro hparsed us hus
    rw [hscan] at hus
    cases hus
    obtain ⟨us, huscan, hutree, hucut⟩ := cut_of_parse hparsed
    have hstay := hcut.numbersStay hmoves nofun hucut.lexed (isChain_of_ofTokens hutree)
    obtain ⟨ps, rfl, hps, hmovesTo⟩ := exists_pairs_of_moves hcut hmoves hstay
    rw [huscan] at hps
    cases hps
    have hreadable : ∀ p ∈ ps, p.2.lexeme.Readable := fun p hp =>
      readable_of_ofTokens hutree _ (List.mem_map_of_mem (List.mem_map_of_mem hp))
    exact (parse_moved_iff hcut htree huscan hmovesTo hstay hreadable).mp hparsed
  · exact parse_moved_of_comesThrough hparse hmoves

theorem parse_shifted_sum :
    parse "B2+2" =
      .ok ((Content.call (.aggregate .sum) [.text "A1", .integer 2]).mapText (movedToken 1 1)) := by
  have hparse : parse "A1+2" = .ok (.call (.aggregate .sum) [.text "A1", .integer 2]) := rfl
  have hmoved : shiftReferences "A1+2" 1 1 = .ok "B2+2" := rfl
  have hvalid : ∀ r, Piece.reference r ∈ Piece.split "A1+2".toList →
      r.shifted 1 1 ≠ .ok invalidReference := by decide +kernel
  have hall : ∀ ts, Token.scan "A1+2" = .ok ts → ∀ l ∈ lexemes ts, l.ComesThrough 1 1 := by
    decide +kernel
  exact (parse_shiftReferences_iff hparse hmoved hvalid).mpr hall

/-- In `1.E5` the exponent moves like a reference to the column `E`. The formula `1.F5` that comes
out is none. -/
theorem parse_shifted_exponent :
    (parse "1.E5").isOk = true ∧ shiftReferences "1.E5" 0 1 = .ok "1.F5" ∧
      (∀ r, Piece.reference r ∈ Piece.split "1.E5".toList →
        r.shifted 0 1 ≠ .ok invalidReference) ∧
      (parse "1.F5").isOk = false := by
  have hvalid : ∀ r, Piece.reference r ∈ Piece.split "1.E5".toList →
      r.shifted 0 1 ≠ .ok invalidReference := by decide +kernel
  exact ⟨by decide +kernel, rfl, hvalid, by decide +kernel⟩

end Formula

end Spreadsheet
