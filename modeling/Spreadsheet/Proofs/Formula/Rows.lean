import Spreadsheet.Proofs.Formula.Completeness
import Spreadsheet.Proofs.Formula.Spacing

/-!
# Rows of lexemes within the limits

What a text is read as depends on the row of its lexemes alone, if the white space between them is all
that keeps them apart. A row is put together from shorter ones, and so is the bound on the parentheses
that are open in it and on the minus signs that stand side by side.
-/

namespace Spreadsheet

open Text Scanned Grammar

def Spaces (cs : List Char) : Prop :=
  ∀ c ∈ cs, isSpace c = true

/-! ## Lexemes that are names -/

namespace Lexeme

theorem simple_name {c : Char} {cs : List Char} (hstart : isNameStart c = true)
    (hparts : ∀ d ∈ cs, isNamePart d = true)
    (hword : ofBooleanWord? (String.ofList (capitals (c :: cs))) = none) :
    (Lexeme.identifier (String.ofList (c :: cs))).Simple := by
  refine ⟨?_, nofun⟩
  have hname : nameLexeme (c :: cs) = .identifier (String.ofList (c :: cs)) := by
    unfold nameLexeme
    rw [hword]
  have hpoint : c ≠ '.' := ne_of_isNamePart (isNamePart_of_isNameStart hstart) (by decide +kernel)
  have hspells := spells_name hstart (by simp [isDigit_of_isNameStart hstart, hpoint])
    (List.forall_mem_cons.mpr ⟨isNamePart_of_isNameStart hstart, hparts⟩)
  rw [hname] at hspells
  rw [show (Lexeme.identifier (String.ofList (c :: cs))).text.toList = c :: cs
    from String.toList_ofList]
  exact hspells

theorem simple_comma : Lexeme.comma.Simple :=
  ⟨⟨',', [], rfl, rfl⟩, nofun⟩

end Lexeme

theorem toNat_lt_of_toUpper {c : Char} (h : c.toUpper.toNat < 128) : c.toNat < 128 := by
  unfold Char.toUpper at h
  split at h
  · rename_i hsmall
    have hhi : c.toNat ≤ 122 := UInt32.le_iff_toNat_le.mp hsmall.2
    omega
  · exact h

/-- A character of the name of a function, in small or capital letters, starts and goes on names. -/
theorem capital_of_toUpper {c d : Char} (h : c.toUpper = d) (hd : isCapital d = true ∨ d = '_') :
    capital c = [d] ∧ isNameStart c = true := by
  have hall : ∀ k < 128, isCapital (Char.ofNat k).toUpper = true ∨ (Char.ofNat k).toUpper = '_' →
      isNameStart (Char.ofNat k) = true := by
    decide +kernel
  have hlt : d.toNat < 128 := by
    rcases hd with hcapital | rfl
    · have hbounds := toNat_of_isCapital hcapital
      omega
    · decide
  have hbasic : c.toNat < 128 := toNat_lt_of_toUpper (by rw [h]; exact hlt)
  have hstart := forall_of_basic
    (p := fun c => isCapital c.toUpper = true ∨ c.toUpper = '_' → isNameStart c = true) hall hbasic
  rw [capital_of_basic hbasic, h]
  exact ⟨rfl, hstart (by rw [h]; exact hd)⟩

theorem isCapital_of_mem_name (f : Function) :
    ∀ d ∈ f.name.toList, isCapital d = true ∨ d = '_' := by
  have hall : ∀ f ∈ Function.all,
      f.name.toList.all (fun d => isCapital d || d = '_') = true := by
    decide +kernel
  intro d hd
  have hchar := List.all_eq_true.mp (hall f (Function.mem_all f)) d hd
  simpa using hchar

theorem Function.map_toUpper_name (f : Function) :
    f.name.toList.map Char.toUpper = f.name.toList := by
  have hall : ∀ f ∈ Function.all, f.name.toList.map Char.toUpper = f.name.toList := by decide
  exact hall f (Function.mem_all f)

theorem capitals_of_toUpper {cs ds : List Char} (h : cs.map Char.toUpper = ds)
    (hds : ∀ d ∈ ds, isCapital d = true ∨ d = '_') :
    capitals cs = ds ∧ ∀ c ∈ cs, isNameStart c = true := by
  -- Capital forms are taken letter by letter, since none of these letters grows.
  induction cs generalizing ds with
  | nil =>
    obtain rfl := h
    exact ⟨rfl, List.forall_mem_nil _⟩
  | cons c cs ih =>
    obtain rfl := h
    obtain ⟨hd, hds⟩ := List.forall_mem_cons.mp hds
    obtain ⟨hc, hstart⟩ := capital_of_toUpper rfl hd
    obtain ⟨hcs, hstarts⟩ := ih rfl hds
    rw [capitals_cons, hc, hcs]
    exact ⟨rfl, List.forall_mem_cons.mpr ⟨hstart, hstarts⟩⟩

theorem Function.capitals_name (f : Function) : capitals f.name.toList = f.name.toList :=
  (capitals_of_toUpper f.map_toUpper_name (isCapital_of_mem_name f)).1

theorem Lexeme.simple_function {f : Function} {name : List Char}
    (h : name.map Char.toUpper = f.name.toList) :
    (Lexeme.identifier (String.ofList name)).Simple ∧ f.name.toList = capitals name := by
  obtain ⟨hcapitals, hstarts⟩ := capitals_of_toUpper h (isCapital_of_mem_name f)
  refine ⟨?_, hcapitals.symm⟩
  have hwords : ∀ f ∈ Function.all, f.name ≠ "" ∧ ofBooleanWord? f.name = none := by decide
  obtain ⟨hne, hword⟩ := hwords f (Function.mem_all f)
  cases name with
  | nil => exact absurd (String.toList_eq_nil_iff.mp h.symm) hne
  | cons c cs =>
    obtain ⟨hc, hcs⟩ := List.forall_mem_cons.mp hstarts
    refine Lexeme.simple_name hc (fun d hd => isNamePart_of_isNameStart (hcs d hd)) ?_
    rw [hcapitals, String.ofList_toList]
    exact hword

/-! ## Rows within the limits -/

/-- A place with one minus sign in front of the operand at most. A sign alone is none, since another one
may follow it. -/
structure Grammar.Place.Plain (p : Place) : Prop where
  signs_le : p.signs ≤ 1
  eq_zero : p.behindOperand = false → p.signs = 0

def Modest (ls : List Lexeme) (levels : Nat) : Prop :=
  ∀ p : Place, p.Plain → (p.after ls).Plain ∧ (p.after ls).outer = p.outer ∧
    (p.after ls).base = p.base ∧ p.most ls ≤ p.base + 9 * levels + 1

theorem Grammar.Place.Plain.frames_le {p : Place} (h : p.Plain) : p.frames ≤ p.base + 1 :=
  Nat.add_le_add_left h.signs_le p.base

theorem Grammar.Place.behind_of_isOperand {l : Lexeme} (h : l.isOperand = true) (p : Place) :
    p.behind l = { p with behindOperand := true } := by
  cases l <;> first | rfl | cases h

namespace Modest

variable {ls ms : List Lexeme} {levels : Nat}

theorem nil (levels : Nat) : Modest [] levels := by
  intro p hp
  refine ⟨hp, rfl, rfl, ?_⟩
  have hle : p.most [] ≤ p.base + 1 := hp.frames_le
  omega

theorem append (h : Modest ls levels) (h' : Modest ms levels) : Modest (ls ++ ms) levels := by
  intro p hp
  obtain ⟨hplain, houter, hbase, hmost⟩ := h p hp
  obtain ⟨hplain', houter', hbase', hmost'⟩ := h' _ hplain
  rw [Place.after_append, Place.most_append]
  exact ⟨hplain', houter'.trans houter, hbase'.trans hbase, by omega⟩

theorem mono {more : Nat} (h : Modest ls levels) (hle : levels ≤ more) : Modest ls more := by
  intro p hp
  obtain ⟨hplain, houter, hbase, hmost⟩ := h p hp
  exact ⟨hplain, houter, hbase, by omega⟩

/-- A lexeme that leaves what is in use and one sign at most. -/
theorem single {l : Lexeme} (hplain : ∀ p : Place, p.Plain → (p.behind l).Plain)
    (houter : ∀ p : Place, (p.behind l).outer = p.outer)
    (hbase : ∀ p : Place, (p.behind l).base = p.base) (levels : Nat) : Modest [l] levels := by
  intro p hp
  refine ⟨hplain p hp, houter p, hbase p, ?_⟩
  have hle := hp.frames_le
  have hle' := (hplain p hp).frames_le
  rw [hbase] at hle'
  show max p.frames (p.behind l).frames ≤ _
  omega

theorem operand {l : Lexeme} (hoperand : l.isOperand = true) (levels : Nat) :
    Modest [l] levels := by
  have hbehind := Place.behind_of_isOperand hoperand
  refine single (fun p hp => ?_) (fun p => ?_) (fun p => ?_) levels
  · rw [hbehind]
    exact ⟨hp.signs_le, nofun⟩
  · rw [hbehind]
  · rw [hbehind]

theorem comma (levels : Nat) : Modest [.comma] levels := by
  refine single (fun _ _ => ⟨?_, fun _ => rfl⟩) (fun _ => rfl) (fun _ => rfl) levels
  exact Nat.zero_le 1

/-- A minus sign in front of an operand is the only one there, or it subtracts. -/
theorem negative {l : Lexeme} (hoperand : l.isOperand = true) (levels : Nat) :
    Modest [.operator (.arithmetic .subtract), l] levels := by
  intro p hp
  -- Behind an operand the sign is a subtraction and takes no frame of its own.
  generalize hq : p.behind (.operator (.arithmetic .subtract)) = q
  obtain ⟨hsigns, houter, hbase⟩ : q.signs ≤ 1 ∧ q.outer = p.outer ∧ q.base = p.base := by
    subst hq
    obtain ⟨outer, base, signs, behindOperand⟩ := p
    cases behindOperand with
    | true => exact ⟨Nat.zero_le 1, rfl, rfl⟩
    | false =>
      obtain rfl : signs = 0 := hp.eq_zero rfl
      exact ⟨Nat.le_refl 1, rfl, rfl⟩
  have hafter : p.after [.operator (.arithmetic .subtract), l] = { q with behindOperand := true } := by
    rw [← hq]
    exact Place.behind_of_isOperand hoperand _
  rw [hafter]
  refine ⟨⟨hsigns, nofun⟩, houter, hbase, ?_⟩
  have hframes := hp.frames_le
  show max p.frames (max (p.behind _).frames (Place.behind (p.behind _) l).frames) ≤ _
  rw [hq, Place.behind_of_isOperand hoperand]
  simp only [Place.frames] at hframes ⊢
  omega

/-- An operand behind any operator has one sign in front at most. -/
theorem operator {l : Lexeme} (hoperand : l.isOperand = true) (op : Arithmetic) (levels : Nat) :
    Modest [.operator (.arithmetic op), l] levels := by
  have hplain : ∀ {op}, op ≠ .subtract → Modest [.operator (.arithmetic op)] levels := by
    intro op hop
    cases op with
    | subtract => exact absurd rfl hop
    | _ =>
      refine single (fun _ _ => ⟨?_, fun _ => rfl⟩) (fun _ => rfl) (fun _ => rfl) _
      exact Nat.zero_le 1
  by_cases hop : op = .subtract
  · subst hop
    exact negative hoperand levels
  · exact (hplain hop).append (operand hoperand levels)

/-- Parentheses take one level more than what is in them. -/
theorem group (h : Modest ls levels) :
    Modest (.leftParen :: (ls ++ [.rightParen])) (levels + 1) := by
  intro p hp
  have hframes := hp.frames_le
  generalize hq : p.behind .leftParen = q
  have hopening : q.base ≤ p.base + 9 := by
    rw [← hq]
    show p.frames + (if p.behindOperand then 8 else 7) ≤ _
    split <;> omega
  have hq' : q.Plain := hq ▸ ⟨Nat.zero_le 1, fun _ => rfl⟩
  obtain ⟨hplain, houter, hbase, hmost⟩ := h q hq'
  have hinner := hplain.frames_le
  -- The closing parenthesis finds what was in use in front of the opening one.
  have hclosing : (q.after ls).behind .rightParen = ⟨p.outer, p.base, 0, true⟩ := by
    show Place.mk (q.after ls).outer.tail ((q.after ls).outer.headD 0) 0 true = _
    rw [houter, ← hq]
    rfl
  have hafter : p.after (.leftParen :: (ls ++ [.rightParen])) = ⟨p.outer, p.base, 0, true⟩ := by
    rw [← hclosing, ← hq, ← List.cons_append, Place.after_append]
    rfl
  rw [hafter]
  refine ⟨⟨Nat.zero_le 1, nofun⟩, rfl, rfl, ?_⟩
  show max p.frames ((p.behind .leftParen).most (ls ++ [.rightParen])) ≤ _
  rw [hq, Place.most_append]
  show max p.frames (max _ (max (q.after ls).frames ((q.after ls).behind .rightParen).frames)) ≤ _
  have hend : ((q.after ls).behind .rightParen).frames = p.base + 0 := congrArg Place.frames hclosing
  omega

theorem withinLimits (h : Modest ls levels) (hlevels : 9 * levels < allowance) :
    WithinLimits ls := by
  obtain ⟨-, -, -, hmost⟩ := h .start ⟨Nat.zero_le 1, fun _ => rfl⟩
  have hbase : Place.start.base = 0 := rfl
  unfold WithinLimits
  omega

end Modest

/-! ## Texts of such rows -/

theorem Spaced.append {cs ds : List Char} {ls ms : List Lexeme} (h : Spaced cs ls)
    (h' : Spaced ds ms) : Spaced (cs ++ ds) (ls ++ ms) := by
  -- The second text is put where the first one ends.
  induction h with
  | nil => exact h'
  | space hspace _ ih => exact .space hspace ih
  | lexeme _ ih =>
    rw [List.append_assoc]
    exact .lexeme ih

theorem Spaced.of_spaces {cs : List Char} (h : Spaces cs) : Spaced cs [] := by
  induction cs with
  | nil => exact .nil
  | cons c cs ih =>
    obtain ⟨hc, hcs⟩ := List.forall_mem_cons.mp h
    exact .space hc (ih hcs)

theorem Spaced.single (l : Lexeme) : Spaced l.text.toList [l] := by
  have hspaced := Spaced.lexeme (l := l) Spaced.nil
  rwa [List.append_nil] at hspaced

/-- Whether a text is some lexemes with white space between them, none of them starts a longer one, and
the row of them stays within the limits. -/
structure Fits (cs : List Char) (ls : List Lexeme) (levels : Nat) : Prop where
  spaced : Spaced cs ls
  simple : ∀ l ∈ ls, l.Simple
  modest : Modest ls levels

namespace Fits

variable {cs ds : List Char} {ls ms : List Lexeme} {levels : Nat}

theorem spaces (h : Spaces cs) (levels : Nat) : Fits cs [] levels :=
  ⟨.of_spaces h, List.forall_mem_nil _, .nil levels⟩

theorem append (h : Fits cs ls levels) (h' : Fits ds ms levels) :
    Fits (cs ++ ds) (ls ++ ms) levels where
  spaced := h.spaced.append h'.spaced
  simple := List.forall_mem_append.mpr ⟨h.simple, h'.simple⟩
  modest := h.modest.append h'.modest

theorem mono {more : Nat} (h : Fits cs ls levels) (hle : levels ≤ more) : Fits cs ls more :=
  ⟨h.spaced, h.simple, h.modest.mono hle⟩

theorem operand {l : Lexeme} (hsimple : l.Simple) (hoperand : l.isOperand = true) (levels : Nat) :
    Fits l.text.toList [l] levels :=
  ⟨.single l, List.forall_mem_singleton.mpr hsimple, .operand hoperand levels⟩

theorem comma (levels : Nat) : Fits [','] [.comma] levels :=
  ⟨.single .comma, List.forall_mem_singleton.mpr Lexeme.simple_comma, .comma levels⟩

theorem negative {l : Lexeme} (hsimple : l.Simple) (hoperand : l.isOperand = true) (levels : Nat) :
    Fits ('-' :: l.text.toList) [.operator (.arithmetic .subtract), l] levels where
  spaced := .lexeme (l := .operator (.arithmetic .subtract)) (.single l)
  simple := List.forall_mem_cons.mpr
    ⟨Lexeme.simple_arithmetic .subtract, List.forall_mem_singleton.mpr hsimple⟩
  modest := .negative hoperand levels

theorem group (h : Fits cs ls levels) :
    Fits ('(' :: (cs ++ [')'])) (.leftParen :: (ls ++ [.rightParen])) (levels + 1) where
  spaced := .lexeme (l := .leftParen) (h.spaced.append (.single .rightParen))
  simple := List.forall_mem_cons.mpr ⟨Lexeme.simple_leftParen,
    List.forall_mem_append.mpr ⟨h.simple, List.forall_mem_singleton.mpr Lexeme.simple_rightParen⟩⟩
  modest := h.modest.group

end Fits

/-! ## Reading such texts -/

theorem withoutEquals_of_forall {ts : List Token}
    (h : ∀ l ∈ lexemes ts, ∀ op, l ≠ .operator (.comparison op)) :
    Formula.withoutEquals ts = ts := by
  unfold Formula.withoutEquals
  split
  · rename_i position rest
    exact absurd rfl (h _ List.mem_cons_self .equal)
  · rfl

namespace Formula

/-- A row of lexemes that the grammar derives as a formula is read, also behind an equals sign. -/
theorem parse_of_fits {text : String} {ls : List Lexeme} {levels : Nat} {tree : Content}
    (h : Fits text.toList ls levels) (hlevels : 9 * levels < allowance) (hwhole : Whole ls tree) :
    parse text = .ok tree ∧ parse ("=" ++ text) = .ok tree := by
  have hlimits := h.modest.withinLimits hlevels
  have hcut := h.spaced.cut_of_simple h.simple hwhole.isChain
  constructor
  · obtain ⟨ts, hscan, rfl⟩ := Token.scan_of_cut hcut
    rw [parse_eq_ofTokens hscan]
    apply ofTokens_complete hlimits
    rw [withoutEquals_of_forall fun l hl => (h.simple l hl).ne_comparison]
    exact hwhole
  · have hequal : (Lexeme.operator (.comparison .equal)).Spells ['='] := ⟨'=', [], rfl, rfl⟩
    have htext : ("=" ++ text).toList = ['='] ++ text.toList := String.toList_append
    have hcut' : Cut ("=" ++ text).toList (.operator (.comparison .equal) :: ls) := by
      rw [htext]
      exact .lexeme hequal (fun _ _ => rfl) hcut
    obtain ⟨ts, hscan, hls⟩ := Token.scan_of_cut hcut'
    obtain ⟨⟨l, position⟩, us, rfl, rfl, rfl⟩ := lexemes_eq_cons hls
    rw [parse_eq_ofTokens hscan]
    refine ofTokens_complete ?_ hwhole
    -- The equals sign leaves the place as it is at the start.
    exact Nat.max_le.mpr ⟨Nat.zero_le _, hlimits⟩

end Formula

end Spreadsheet
