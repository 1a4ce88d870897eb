import AccessorScan.Proofs.Sketch
import Mathlib.Data.List.TakeWhile

/-!
# `Proofs.Cutting` — the lexemes of written text

A text is written as words and marks with blanks before them. If none of them goes on in what follows it, the
cutter gives them back one by one. Pieces that are cut alike whatever follows may be laid out with any blanks
between them.

## Contents
- `Written`: a word or a mark as it is written, with `IsSound` and `Ends`.
- `number_cons`, `mark_cons`: extents that end before what follows.
- `Written.firstLexeme_eq`, `Written.cut_eq`: the first lexeme of a text, and one step of the cutter.
- `Cuts`: the moulds of the lexemes of a text; `Cuts.cons`, `Cuts.append`.
- `layOut`, `cuts_layOut`: pieces with blanks between them.
-/

namespace AccessorScan

/-! ## Words and marks -/

def IsBlankText (text : String) : Prop := text.toList.all isBlankChar = true

/-- A word or a mark of one character, with the blanks before it. -/
inductive Written where
  | word (blank text : String)
  | mark (blank : String) (c : Char)

def isWordText (text : String) : Bool :=
  match text.toList with
  | [] => false
  | c :: cs => isIdentifierStart c && cs.all isIdentifierPart

/-- A mark by itself. The mark `@` is left out, since the word that follows it may belong to it. -/
def isMarkChar (c : Char) : Bool := Extent.oneOf Extent.shortMarks c && c != '@'

/-- No longer mark starts with this character. -/
def isLoneMark (c : Char) : Bool := Extent.longMarks.all fun m => m.toList.head? != some c

namespace Written

def blank : Written → String
  | word blank _ => blank
  | mark blank _ => blank

def text : Written → String
  | word _ text => text
  | mark _ c => String.ofList [c]

def mould : Written → Mould
  | word _ text => .fixed .word text
  | mark _ c => .fixed .mark (String.ofList [c])

def chars (w : Written) : List Char := w.blank.toList ++ w.text.toList

/-- It is written in characters of its kind. -/
def IsSound : Written → Prop
  | word blank text => IsBlankText blank ∧ isWordText text = true
  | mark blank c => IsBlankText blank ∧ isMarkChar c = true

/-- The characters that follow do not belong to it. -/
def Ends : Written → List Char → Prop
  | word _ _, cs => ∀ d ∈ cs.head?, isIdentifierPart d = false
  | mark _ c, cs => isLoneMark c = true ∨ ∀ d ∈ cs.head?, isBlankChar d = true ∨ isIdentifierStart d = true

/-- The one that is written next does not belong to it. -/
def isApart : Written → Written → Bool
  | word _ _, mark _ _ => true
  | word _ _, word blank _ => blank != ""
  | mark _ _, word _ _ => true
  | mark _ c, mark blank _ => isLoneMark c || blank != ""

/-- Whatever is written next does not belong to it. -/
def isClosed : Written → Bool
  | word _ _ => false
  | mark _ c => isLoneMark c

end Written

/-! ## Characters -/

/-- There are few blanks, so that what is claimed of them can be tried out. -/
theorem of_isBlankChar {P : Char → Prop} {c : Char}
    (h : ∀ n < 33, n = 32 ∨ 9 ≤ n ∧ n ≤ 13 → P (Char.ofNat n)) (hc : isBlankChar c = true) : P c := by
  simp only [isBlankChar, Bool.or_eq_true, Bool.and_eq_true, beq_iff_eq, decide_eq_true_eq] at hc
  rcases hc with rfl | hc
  · exact h 32 (by decide) (.inl rfl)
  · exact Char.ofNat_toNat c ▸ h c.toNat (by omega) (.inr hc)

theorem isIdentifierPart_of_isBlankChar {c : Char} (hc : isBlankChar c = true) : isIdentifierPart c = false :=
  of_isBlankChar (P := fun c => isIdentifierPart c = false) (by decide) hc

theorem isDigit_of_isBlankChar {c : Char} (hc : isBlankChar c = true) : c.isDigit = false :=
  of_isBlankChar (P := fun c => c.isDigit = false) (by decide) hc

theorem isDigit_of_isIdentifierStart {c : Char} (hc : isIdentifierStart c = true) : c.isDigit = false := by
  have hall : ∀ n < 58, 48 ≤ n → isIdentifierStart (Char.ofNat n) = false := by decide
  rw [← Bool.not_eq_true]
  intro hdigit
  simp only [Char.isDigit, Bool.and_eq_true, decide_eq_true_eq, ge_iff_le, UInt32.le_iff_toNat_le] at hdigit
  have hstart := hall c.toNat (Nat.lt_succ_of_le hdigit.2) hdigit.1
  rw [Char.ofNat_toNat, hc] at hstart
  cases hstart

theorem isBlankChar_of_isIdentifierStart {c : Char} (hc : isIdentifierStart c = true) :
    isBlankChar c = false := by
  rw [← Bool.not_eq_true]
  intro hblank
  have hpart := isIdentifierPart_of_isBlankChar hblank
  rw [isIdentifierPart, hc] at hpart
  cases hpart

/-! ## The first lexeme -/

theorem grouped_cons {digit : Char → Bool} {c : Char} (hc : digit c = false) (cs : List Char) :
    Extent.grouped digit (c :: cs) = 0 := by
  cases cs with
  | nil => simp [Extent.grouped, hc]
  | cons d cs => cases cs <;> simp [Extent.grouped, hc]

/-- No number starts with a character that is neither a digit nor a point before one. -/
theorem number_cons {c : Char} {cs : List Char} (hc : c.isDigit = false)
    (hpoint : c = '.' → ∀ d ∈ cs.head?, d.isDigit = false) : Extent.number (c :: cs) = (0, "") := by
  have hzero : c ≠ '0' := by rintro rfl; cases hc
  have hwhole : Extent.decimalWhole (c :: cs) = 0 := by simp [Extent.decimalWhole, hc]
  have hbased : ∀ letters digit, Extent.based letters digit (c :: cs) = 0 := fun letters digit => by
    unfold Extent.based
    split
    case h_1 heq => exact absurd (List.cons.inj heq).1 hzero
    case h_2 => rfl
  have hoctal : Extent.octal (c :: cs) = 0 := by simp [Extent.octal, hbased, hzero]
  have hfraction : c = '.' → Extent.grouped Char.isDigit cs = 0 := fun h => by
    cases cs with
    | nil => rfl
    | cons d cs => exact grouped_cons (hpoint h d rfl) cs
  have hfloat : Extent.decimalFloat (c :: cs) = 0 := by
    simp +contextual [Extent.decimalFloat, grouped_cons hc, hwhole, hfraction]
  have hhex : Extent.hexFloat (c :: cs) = 0 := by
    unfold Extent.hexFloat
    split
    case h_1 heq => exact absurd (List.cons.inj heq).1 hzero
    case h_2 => rfl
  simp [Extent.number, Extent.decimal, hwhole, hbased, hoctal, hfloat, hhex, Extent.longer]

/-- A mark is no part of a longer one if it ends before what follows. -/
theorem mark_cons {c : Char} {cs : List Char} (hshort : Extent.oneOf Extent.shortMarks c = true)
    (hc : c ≠ '@') (hends : (Written.mark "" c).Ends cs) : Extent.mark (c :: cs) = 1 := by
  have hlong : Extent.longMarks.find? (fun m => m.toList.isPrefixOf (c :: cs)) = none := by
    refine List.find?_eq_none.mpr fun m hm hbeginning => ?_
    -- the second character of a long mark is neither a blank nor the start of a word
    have hsecond : (Extent.longMarks.all fun m => m.toList.head? == some '@' ||
        m.toList[1]?.any fun b => !(isBlankChar b || isIdentifierStart b)) = true := by decide
    have hm2 := List.all_eq_true.mp hsecond m hm
    obtain ⟨tail, htail⟩ := List.isPrefixOf_iff_prefix.mp hbeginning
    cases htext : m.toList with
    | nil => simp [htext] at hm2
    | cons a rest =>
        rw [htext] at htail hm2
        obtain ⟨rfl, hrest⟩ := List.cons.inj htail
        rcases hends with hlone | hends
        · have hhead := List.all_eq_true.mp hlone m hm
          simp [htext] at hhead
        · cases rest with
          | nil => simp [hc] at hm2
          | cons b rest =>
              have hb : b ∈ cs.head? := by rw [← hrest]; rfl
              rcases hends b hb with hb | hb <;> simp [hb, hc] at hm2
  rw [Extent.mark, hlong]
  simp [Extent.optional, hshort]

namespace Written

variable {w : Written} {cs : List Char}

/-- What the characters of marks have in common. -/
theorem mark_char {c : Char} (hmark : isMarkChar c = true) :
    isIdentifierPart c = false ∧ isIdentifierStart c = false ∧ isBlankChar c = false ∧ c.isDigit = false ∧
      c ≠ '"' ∧ c ≠ '\'' := by
  have hall : (Extent.shortMarks.toList.all fun c => !(isIdentifierPart c || isIdentifierStart c ||
      isBlankChar c || c.isDigit || c == '"' || c == '\'')) = true := by decide
  have hc := List.all_eq_true.mp hall c (List.contains_iff_mem.mp (Bool.and_eq_true_iff.mp hmark).1)
  simpa only [Bool.not_eq_true', Bool.or_eq_false_iff, beq_eq_false_iff_ne, and_assoc] using hc

theorem exists_of_isWordText {text : String} (h : isWordText text = true) :
    ∃ c cs, text.toList = c :: cs ∧ isIdentifierStart c = true ∧ ∀ d ∈ cs, isIdentifierPart d = true := by
  unfold isWordText at h
  split at h
  case h_1 => cases h
  case h_2 c cs htext =>
    obtain ⟨hstart, hparts⟩ := Bool.and_eq_true_iff.mp h
    exact ⟨c, cs, htext, hstart, List.all_eq_true.mp hparts⟩

theorem firstLexeme_eq (hsound : w.IsSound) (hends : w.Ends cs) :
    firstLexeme [] (w.text.toList ++ cs) = (w.mould.kind, w.text.toList.length, []) := by
  cases w with
  | word blank text =>
      obtain ⟨c, rest, htext, hstart, hparts⟩ := exists_of_isWordText hsound.2
      have hrun : Extent.run isIdentifierPart (rest ++ cs) = rest.length := by
        rw [Extent.run, List.takeWhile_append_of_pos hparts]
        cases cs with
        | nil => simp
        | cons d cs => simp [hends d rfl]
      simp only [Written.text, htext, List.cons_append, firstLexeme, if_pos hstart, hrun, List.length_cons,
        mould, Mould.kind, Nat.add_comm]
  | mark blank c =>
      obtain ⟨-, hstart, -, hdigit, hquote, happ⟩ := mark_char hsound.2
      obtain ⟨hshort, hc⟩ := Bool.and_eq_true_iff.mp hsound.2
      have hnumber : Extent.number (c :: cs) = (0, "") := by
        refine number_cons hdigit fun hpoint d hd => ?_
        rcases hends with hlone | hends
        · rw [hpoint] at hlone
          exact absurd hlone (by decide)
        · rcases hends d hd with hd | hd
          · exact isDigit_of_isBlankChar hd
          · exact isDigit_of_isIdentifierStart hd
      have hlength : Extent.mark (c :: cs) = 1 := mark_cons hshort (by simpa using hc) hends
      simp [Written.text, firstLexeme, hstart, hquote, happ, hnumber, hlength, mould, Mould.kind]

theorem comment?_eq (hsound : w.IsSound) (hends : w.Ends cs) : comment? (w.text.toList ++ cs) = none := by
  cases w with
  | word blank text =>
      obtain ⟨c, rest, htext, hstart, -⟩ := exists_of_isWordText hsound.2
      have hc : c ≠ '/' := by rintro rfl; exact absurd hstart (by decide)
      simp [Written.text, htext, comment?, hc]
  | mark blank c =>
      simp only [Written.text, String.toList_ofList, List.singleton_append]
      unfold comment?
      split
      case h_1 heq =>
        obtain ⟨rfl, rfl⟩ := List.cons.inj heq
        exact absurd hends (by simp [Ends]; decide)
      case h_2 heq =>
        obtain ⟨rfl, rfl⟩ := List.cons.inj heq
        exact absurd hends (by simp [Ends]; decide)
      case h_3 => rfl

/-- It starts with a character that is no blank. -/
theorem exists_toList (hsound : w.IsSound) :
    ∃ c rest, w.text.toList = c :: rest ∧ isBlankChar c = false := by
  cases w with
  | word blank text =>
      obtain ⟨c, rest, htext, hstart, -⟩ := exists_of_isWordText hsound.2
      exact ⟨c, rest, htext, isBlankChar_of_isIdentifierStart hstart⟩
  | mark blank c =>
      exact ⟨c, [], String.toList_ofList, (mark_char hsound.2).2.2.1⟩

theorem isBlankText_blank (hsound : w.IsSound) : IsBlankText w.blank := by
  cases w <;> exact hsound.1

/-- What is written starts with a blank, or else with its word or its mark. -/
theorem head_chars (hsound : w.IsSound) {d : Char} (hd : d ∈ (w.chars ++ cs).head?) :
    isBlankChar d = true ∨ w.blank = "" ∧ d ∈ w.text.toList.head? := by
  cases hchars : w.blank.toList with
  | nil =>
      obtain ⟨c, rest, htext, -⟩ := exists_toList hsound
      rw [chars, hchars, htext] at hd
      exact .inr ⟨String.toList_eq_nil_iff.mp hchars, htext ▸ hd⟩
  | cons b bs =>
      rw [chars, hchars] at hd
      obtain rfl := Option.some.inj hd
      exact .inl (List.all_eq_true.mp (isBlankText_blank hsound) b (hchars ▸ List.mem_cons_self))

theorem ends_of_isClosed (h : w.isClosed = true) : w.Ends cs := by
  cases w with
  | word blank text => cases h
  | mark blank c => exact .inl h

theorem ends_of_isApart {v : Written} (hv : v.IsSound) (h : w.isApart v = true) :
    w.Ends (v.chars ++ cs) := by
  cases w with
  | word blank text =>
      intro d hd
      rcases head_chars hv hd with hblank | ⟨hempty, hhead⟩
      · exact isIdentifierPart_of_isBlankChar hblank
      · cases v with
        | word _ _ => exact absurd hempty (bne_iff_ne.mp h)
        | mark _ c =>
            obtain rfl : c = d := Option.some.inj (by simpa [Written.text] using hhead)
            exact (mark_char hv.2).1
  | mark blank c =>
      cases v with
      | word _ _ =>
          refine .inr fun d hd => (head_chars hv hd).imp_right fun ⟨_, hhead⟩ => ?_
          obtain ⟨e, rest, htext, hstart, -⟩ := exists_of_isWordText hv.2
          rw [Written.text, htext] at hhead
          exact Option.some.inj hhead ▸ hstart
      | mark _ e =>
          rcases Bool.or_eq_true_iff.mp h with hlone | hblank
          · exact .inl hlone
          · exact .inr fun d hd => (head_chars hv hd).imp_right fun ⟨hempty, _⟩ =>
              absurd hempty (bne_iff_ne.mp hblank)

/-- **One lexeme.** The cutter takes it off, with the blanks before it, and goes on with what follows. -/
theorem cut_eq (hsound : w.IsSound) (hends : w.Ends cs) (fuel : Nat) {s : Cutter}
    (hcomments : s.comments = []) (hopened : s.opened = []) :
    ∃ l next, cut (fuel + 1) s (w.chars ++ cs) = l :: cut fuel next cs ∧ w.mould.Fits l ∧
      next.comments = [] ∧ next.opened = [] := by
  obtain ⟨c, rest, htext, hc⟩ := exists_toList hsound
  have hblank : ∀ x ∈ w.blank.toList, isBlankChar x = true :=
    List.all_eq_true.mp (isBlankText_blank hsound)
  have htake : (w.chars ++ cs).takeWhile isBlankChar = w.blank.toList := by
    rw [chars, List.append_assoc, List.takeWhile_append_of_pos hblank, htext]
    simp [hc]
  have hdrop : (w.chars ++ cs).dropWhile isBlankChar = w.text.toList ++ cs := by
    rw [chars, List.append_assoc, List.dropWhile_append_of_pos hblank, htext]
    simp [hc]
  have hsome : (w.text.toList ++ cs).isEmpty = false := by simp [htext]
  rw [cut]
  simp only [htake, hdrop, hsome, comment?_eq hsound hends, hopened, hcomments, firstLexeme_eq hsound hends,
    List.take_left, List.drop_left, Bool.false_eq_true, if_false]
  refine ⟨_, _, rfl, ?_, rfl, rfl⟩
  cases w <;> exact ⟨rfl, nofun, rfl, String.ofList_toList⟩

end Written

/-! ## The lexemes of a text -/

/-- A text is cut into lexemes of these moulds, wherever it stands. -/
def Cuts (cs : List Char) (moulds : List Mould) : Prop :=
  ∀ fuel s, cs.length < fuel → s.comments = [] → s.opened = [] →
    List.Forall₂ Mould.Fits moulds (cut fuel s cs)

namespace Cuts

variable {cs : List Char} {moulds : List Mould}

theorem finish {text : String} (h : IsBlankText text) : Cuts text.toList [.fixed .finish ""] := by
  intro fuel s hfuel hcomments _
  obtain ⟨fuel, rfl⟩ : ∃ less, fuel = less + 1 := Nat.exists_eq_add_one.mpr (Nat.zero_lt_of_lt hfuel)
  have hdrop : text.toList.dropWhile isBlankChar = [] :=
    List.dropWhile_eq_nil_iff.mpr (List.all_eq_true.mp h)
  rw [cut]
  simp only [hdrop, hcomments, List.isEmpty_nil, if_true]
  exact .cons ⟨rfl, nofun, rfl, rfl⟩ .nil

theorem cons {w : Written} (hsound : w.IsSound) (hends : w.Ends cs) (h : Cuts cs moulds) :
    Cuts (w.chars ++ cs) (w.mould :: moulds) := by
  intro fuel s hfuel hcomments hopened
  obtain ⟨fuel, rfl⟩ : ∃ less, fuel = less + 1 := Nat.exists_eq_add_one.mpr (Nat.zero_lt_of_lt hfuel)
  obtain ⟨l, next, hcut, hfits, hcomments, hopened⟩ := w.cut_eq hsound hends fuel hcomments hopened
  have hlength : cs.length < fuel := by
    obtain ⟨c, rest, htext, -⟩ := Written.exists_toList hsound
    simp only [Written.chars, htext, List.length_append, List.length_cons] at hfuel
    omega
  rw [hcut]
  exact .cons hfits (h fuel next hlength hcomments hopened)

end Cuts

/-! ## Pieces of text -/

/-- None of the words and marks goes on in what is written after it. -/
def areApart : List Written → Bool
  | [] => true
  | [w] => w.isClosed
  | w :: v :: ws => w.isApart v && areApart (v :: ws)

theorem Cuts.append {cs : List Char} {moulds : List Mould} {ws : List Written} (hsound : ∀ w ∈ ws, w.IsSound)
    (hapart : areApart ws = true) (hcuts : Cuts cs moulds) :
    Cuts (ws.flatMap Written.chars ++ cs) (ws.map Written.mould ++ moulds) := by
  induction ws with
  | nil => exact hcuts
  | cons w ws ih =>
      obtain ⟨hw, hsound⟩ := List.forall_mem_cons.mp hsound
      rw [List.flatMap_cons, List.append_assoc]
      cases ws with
      | nil => exact hcuts.cons hw (Written.ends_of_isClosed hapart)
      | cons v ws =>
          obtain ⟨hv, hrest⟩ := Bool.and_eq_true_iff.mp hapart
          refine (ih hsound hrest).cons hw ?_
          rw [List.flatMap_cons, List.append_assoc]
          exact Written.ends_of_isApart (hsound v List.mem_cons_self) hv

/-- A text is cut into lexemes of these moulds, whatever stands after it and with any blanks before it. -/
def CutsAs (text : String) (moulds : List Mould) : Prop :=
  ∀ gap, IsBlankText gap → ∀ cs others, Cuts cs others →
    Cuts (gap.toList ++ text.toList ++ cs) (moulds ++ others)

/-- Pieces of text with blanks before each of them and at the end. -/
def layOut (gap : Nat → String) : List String → String
  | [] => gap 0
  | piece :: pieces => gap 0 ++ piece ++ layOut (fun n => gap (n + 1)) pieces

theorem cuts_layOut {pieces : List String} {moulds : List (List Mould)}
    (hpieces : List.Forall₂ CutsAs pieces moulds) {gap : Nat → String} (hgap : ∀ n, IsBlankText (gap n)) :
    Cuts (layOut gap pieces).toList (moulds.flatten ++ [.fixed .finish ""]) := by
  induction hpieces generalizing gap with
  | nil => exact .finish (hgap 0)
  | cons hpiece _ ih =>
      have hall := hpiece _ (hgap 0) _ _ (ih fun n => hgap (n + 1))
      simpa only [layOut, String.toList_append, List.flatten_cons, List.append_assoc] using hall

/-- The lexemes of a source without an order mark. -/
theorem forall₂_lexemes {source : String} {moulds : List Mould}
    (hplain : withoutOrderMark source.toList = source.toList) (h : Cuts source.toList moulds) :
    List.Forall₂ Mould.Fits moulds (lexemes source) := by
  rw [lexemes, hplain]
  exact h _ _ (Nat.lt_succ_self _) rfl rfl

end AccessorScan
