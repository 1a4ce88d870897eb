import AccessorScan.Proofs.Finding
import AccessorScan.Syntax.Grammar
import Mathlib.Data.List.Forall2

/-!
# `Proofs.Sketch` — readings of lexemes that are known in part

What a rule finds depends on the kinds and the texts of lexemes, and of most names it only matters that they
are none of the words that the grammar asks for. So a rule can be run on moulds of lexemes instead of lexemes.
Such a run answers what the rule finds, whatever the names are and whatever follows, or leaves it open. On
given moulds it is a computation, and so the reading of a piece of source can be computed once for all names.

## Contents
- `IsFreeName`, `Mould`: what is known of a lexeme.
- `Hole`, `Sketch`, `Sketch.fill`: trees with holes for lexemes.
- `Answer`, `Rule.answer`: a run on moulds; `answer_holds`: what it answers is found.
- `finds_of_answer`, `misses_of_answer`: what is found by a computation.
-/

namespace AccessorScan

/-! ## What is known of a lexeme -/

/-- The keywords, also those that are keywords in some places only, and the literals that look like names. -/
def meaningfulWords : List String :=
  ["abstract", "assert", "boolean", "break", "byte", "case", "catch", "char", "class", "const", "continue",
    "default", "do", "double", "else", "enum", "extends", "final", "finally", "float", "for", "goto", "if",
    "implements", "import", "instanceof", "int", "interface", "long", "native", "new", "package", "private",
    "protected", "public", "return", "short", "static", "strictfp", "super", "switch", "synchronized", "this",
    "throw", "throws", "transient", "try", "void", "volatile", "while", "_",
    "exports", "module", "non-sealed", "open", "opens", "permits", "provides", "record", "requires", "sealed",
    "to", "transitive", "uses", "var", "when", "with", "yield",
    "true", "false", "null"]

/-- An ASCII letter with ASCII letters and digits after it, as a word without a meaning of its own. -/
structure IsFreeName (name : String) : Prop where
  letters : ∃ c cs, name.toList = c :: cs ∧ c.isAlpha = true ∧ cs.all Char.isAlphanum = true
  free : name ∉ meaningfulWords

/-- What is known of a lexeme: its kind and its text, or that it is a free name. -/
inductive Mould where
  | fixed (kind : LexemeKind) (text : String)
  | name
  deriving DecidableEq

namespace Mould

def kind : Mould → LexemeKind
  | fixed k _ => k
  | name => .word

/-- No free name has this text. -/
def isForeign (text : String) : Bool :=
  meaningfulWords.contains text || !(text.toList.head?.any Char.isAlpha)

/-- Whether the text is one of these, where that is known. -/
def among? (texts : List String) : Mould → Option Bool
  | fixed _ text => some (texts.contains text)
  | name => if texts.all isForeign then some false else none

/-- What a rule for one lexeme makes of it, where that is known. -/
def leaf? : LexemeRule → Mould → Option (Option (String × Bool))
  | .word kind except, m =>
      if m.kind = .word then (m.among? except).map fun b => if b then none else some (kind, true)
      else some none
  | .exact text, m => (m.among? [text]).map fun b => if b then some (text, false) else none
  | .named kind text, m => (m.among? [text]).map fun b => if b then some (kind, true) else none
  | .literal, m =>
      some (match m.kind with
        | .literal kind => some (kind, true)
        | _ => none)
  | .piece kind, m => some (if m.kind = kind then some ("string_fragment", true) else none)

def Allows : Mould → String → Prop
  | fixed _ text, other => other = text
  | name, other => IsFreeName other

/-- The lexeme is what the mould says, and nothing but blanks stands before it. -/
structure Fits (m : Mould) (l : Lexeme) : Prop where
  asides : l.asides = []
  unsupplied : l.kind ≠ .supplied
  kind : l.kind = m.kind
  text : m.Allows l.text

variable {m : Mould} {l : Lexeme}

theorem ne_of_isForeign {name text : String} (hname : IsFreeName name) (h : isForeign text = true) :
    text ≠ name := by
  rintro rfl
  obtain ⟨c, cs, hletters, hc, -⟩ := hname.letters
  simp [isForeign, hname.free, hletters, hc] at h

theorem among?_eq_some {texts : List String} {b : Bool} (h : m.among? texts = some b) (hfits : m.Fits l) :
    texts.contains l.text = b := by
  cases m with
  | fixed kind text => rw [show l.text = text from hfits.text, Option.some.inj h]
  | name =>
      rw [among?] at h
      split at h
      case isTrue hforeign =>
        rw [← Option.some.inj h, ← Bool.not_eq_true, List.contains_iff_mem]
        exact fun hmem => ne_of_isForeign hfits.text (List.all_eq_true.mp hforeign _ hmem) rfl
      case isFalse => cases h

theorem leaf?_eq_some {r : LexemeRule} {leaf : Option (String × Bool)} (h : m.leaf? r = some leaf)
    (hfits : m.Fits l) : r.leaf? l = leaf := by
  cases r with
  | word kind except =>
      rw [leaf?] at h
      rw [LexemeRule.leaf?, hfits.kind]
      split at h
      case isTrue hkind =>
        obtain ⟨b, hb, rfl⟩ := Option.map_eq_some_iff.mp h
        rw [among?_eq_some hb hfits]
        cases b <;> simp [hkind]
      case isFalse hkind =>
        rw [if_neg fun hword => hkind hword.1, Option.some.inj h]
  | exact text =>
      obtain ⟨b, hb, rfl⟩ := Option.map_eq_some_iff.mp h
      rw [LexemeRule.leaf?, ← among?_eq_some hb hfits]
      simp
  | named kind text =>
      obtain ⟨b, hb, rfl⟩ := Option.map_eq_some_iff.mp h
      rw [LexemeRule.leaf?, ← among?_eq_some hb hfits]
      simp
  | literal =>
      rw [LexemeRule.leaf?, hfits.kind]
      exact Option.some.inj h
  | piece kind =>
      rw [LexemeRule.leaf?, hfits.kind]
      exact Option.some.inj h

end Mould

/-! ## Trees with holes for lexemes -/

/-- The place of a lexeme, and what is known of it. -/
structure Hole where
  place : Nat
  mould : Mould

/-- Holes for lexemes of these moulds, one after the other. -/
def holes (moulds : List Mould) : List Hole := moulds.zipIdx.map fun (m, i) => ⟨i, m⟩

/-- A tree with holes for its lexemes. -/
inductive Sketch where
  | leaf (role : Option Role) (kind : String) (named : Bool) (hole : Hole)
  | node (role : Option Role) (kind : String) (children : List Sketch)

namespace Sketch

def kind : Sketch → String
  | leaf _ k _ _ => k
  | node _ k _ => k

def isAside (s : Sketch) : Bool :=
  s.kind == "line_comment" || s.kind == "block_comment" || s.kind == Tree.skippedKind

def withRole (r : Role) : Sketch → Sketch
  | leaf _ k n h => leaf (some r) k n h
  | node _ k cs => node (some r) k cs

def labelled (r : Role) (ss : List Sketch) : List Sketch :=
  ss.map fun s => if s.isAside then s else s.withRole r

def taken (r? : Option Role) (ss : List Sketch) : List Sketch :=
  match r? with
  | some r => labelled r ss
  | none => ss

def wrap (k : String) (ss : List Sketch) : List Sketch :=
  ss.takeWhile isAside ++ [node none k (ss.dropWhile isAside)]

end Sketch

section Filling

variable (ls : Nat → Lexeme)

/-- The text of the lexeme in a hole; that of its mould where it has one. -/
def Hole.text (h : Hole) : String :=
  match h.mould with
  | .fixed _ text => text
  | .name => (ls h.place).text

mutual

/-- The tree of a sketch, with lexemes in its holes. -/
def Sketch.fill : Sketch → Tree
  | .leaf role kind named h =>
      .leaf role ⟨kind, named, false, (ls h.place).blank, h.text ls, (ls h.place).line⟩
  | .node role kind ss => .node role kind (Sketch.fillAll ss)

def Sketch.fillAll : List Sketch → List Tree
  | [] => []
  | s :: ss => s.fill :: Sketch.fillAll ss

end

/-- Every lexeme is of the mould of its hole. -/
def Filled (hs : List Hole) : Prop := ∀ h ∈ hs, h.mould.Fits (ls h.place)

/-- The lexemes in these holes. -/
def lexemesIn (hs : List Hole) : List Lexeme := hs.map fun h => ls h.place

@[simp] theorem lexemesIn_cons (h : Hole) (hs : List Hole) :
    lexemesIn ls (h :: hs) = ls h.place :: lexemesIn ls hs := rfl

end Filling

variable {ls : Nat → Lexeme}

theorem Filled.of_cons {h : Hole} {hs : List Hole} (hfilled : Filled ls (h :: hs)) :
    h.mould.Fits (ls h.place) ∧ Filled ls hs :=
  List.forall_mem_cons.mp hfilled

namespace Sketch

theorem fillAll_eq (ss : List Sketch) : fillAll ls ss = ss.map (fill ls) := by
  induction ss with
  | nil => rfl
  | cons s ss ih => rw [fillAll, ih, List.map_cons]

@[simp] theorem kind_fill (s : Sketch) : (s.fill ls).kind = s.kind := by
  cases s <;> rfl

@[simp] theorem isAside_fill (s : Sketch) : (s.fill ls).isAside = s.isAside := by
  simp [Tree.isAside, Tree.isComment, isAside]

theorem fill_withRole (r : Role) (s : Sketch) : (s.withRole r).fill ls = (s.fill ls).withRole r := by
  cases s <;> rfl

theorem fillAll_append (ss ts : List Sketch) : fillAll ls (ss ++ ts) = fillAll ls ss ++ fillAll ls ts := by
  simp only [fillAll_eq, List.map_append]

theorem fillAll_labelled (r : Role) (ss : List Sketch) :
    fillAll ls (labelled r ss) = AccessorScan.labelled r (fillAll ls ss) := by
  simp only [fillAll_eq, labelled, AccessorScan.labelled, List.map_map]
  refine List.map_congr_left fun s _ => ?_
  by_cases hs : s.isAside = true <;> simp [hs, fill_withRole]

theorem fillAll_taken (r? : Option Role) (ss : List Sketch) :
    fillAll ls (taken r? ss) = Rule.taken r? (fillAll ls ss) := by
  cases r? with
  | none => rfl
  | some r => exact fillAll_labelled r ss

theorem fillAll_wrap (k : String) (ss : List Sketch) :
    fillAll ls (wrap k ss) = Tree.wrap k (fillAll ls ss) := by
  have hasides : Tree.isAside ∘ fill ls = isAside := funext isAside_fill
  simp only [wrap, Tree.wrap, Tree.splitAsides, fillAll_eq, List.takeWhile_map, List.dropWhile_map, hasides,
    List.map_append, List.map_singleton, fill]

/-- A lexeme makes the leaf that is drawn for it. -/
theorem leaves_eq {h : Hole} (hfits : h.mould.Fits (ls h.place)) (k : String) (named : Bool) :
    (ls h.place).leaves k named = fillAll ls [.leaf none k named h] := by
  have hsupplied : ((ls h.place).kind == .supplied) = false := by simp [hfits.unsupplied]
  have htext : (ls h.place).text = h.text ls := by
    have htext := hfits.text
    unfold Hole.text
    cases hmould : h.mould with
    | fixed kind text =>
        rw [hmould] at htext
        exact htext
    | name => rfl
  simp only [Lexeme.leaves, hfits.asides, hsupplied, htext]
  rfl

end Sketch

/-! ## Runs on moulds -/

/-- What is known of the outcome of a rule. -/
inductive Answer where
  | unknown
  | missed
  | found (sketches : List Sketch) (rest : List Hole)

namespace Answer

def map (f : List Sketch → List Sketch) : Answer → Answer
  | unknown => unknown
  | missed => missed
  | found ss rest => found (f ss) rest

def andThen (a : Answer) (f : List Sketch → List Hole → Answer) : Answer :=
  match a with
  | unknown => unknown
  | missed => missed
  | found ss rest => f ss rest

def orElse (a : Answer) (f : Unit → Answer) : Answer :=
  match a with
  | unknown => unknown
  | missed => f ()
  | found ss rest => found ss rest

/-- The answer holds of what is found with these lexemes in the holes and `tail` after them. -/
inductive Holds (ls : Nat → Lexeme) (tail : List Lexeme) :
    Answer → Option (List Tree × List Lexeme) → Prop where
  | unknown {o : Option (List Tree × List Lexeme)} : Holds ls tail .unknown o
  | missed : Holds ls tail .missed none
  | found {ss : List Sketch} {rest : List Hole} (hfilled : Filled ls rest) :
      Holds ls tail (.found ss rest) (some (Sketch.fillAll ls ss, lexemesIn ls rest ++ tail))

variable {tail : List Lexeme} {a : Answer} {o : Option (List Tree × List Lexeme)}

theorem Holds.of_found {ss : List Sketch} {rest : List Hole} (h : Holds ls tail (.found ss rest) o) :
    o = some (Sketch.fillAll ls ss, lexemesIn ls rest ++ tail) := by
  cases h
  rfl

theorem Holds.of_missed (h : Holds ls tail .missed o) : o = none := by
  cases h
  rfl

theorem Holds.map {F : List Sketch → List Sketch} {G : List Tree → List Tree} (h : a.Holds ls tail o)
    (hfill : ∀ ss, Sketch.fillAll ls (F ss) = G (Sketch.fillAll ls ss)) :
    (a.map F).Holds ls tail (o.map fun (trees, rest) => (G trees, rest)) := by
  cases h with
  | unknown => exact .unknown
  | missed => exact .missed
  | found hfilled =>
      show Holds ls tail (.found _ _) (some (G _, _))
      rw [← hfill]
      exact .found hfilled

theorem Holds.andThen {F : List Sketch → List Hole → Answer}
    {G : List Tree → List Lexeme → Option (List Tree × List Lexeme)} (h : a.Holds ls tail o)
    (hnext : ∀ ss rest, Filled ls rest →
      (F ss rest).Holds ls tail (G (Sketch.fillAll ls ss) (lexemesIn ls rest ++ tail))) :
    (a.andThen F).Holds ls tail (o.bind fun (trees, rest) => G trees rest) := by
  cases h with
  | unknown => exact .unknown
  | missed => exact .missed
  | found hfilled => exact hnext _ _ hfilled

theorem Holds.orElse {b : Answer} {q : Option (List Tree × List Lexeme)} (h : a.Holds ls tail o)
    (hnext : b.Holds ls tail q) : (a.orElse fun _ => b).Holds ls tail (o.or q) := by
  cases h with
  | unknown => exact .unknown
  | missed => exact hnext
  | found hfilled => exact .found hfilled

end Answer

namespace Rule

variable {P : Type}

def answerLexeme (r : LexemeRule) (ss : List Sketch) : List Hole → Answer
  | [] => .unknown
  | h :: rest =>
      match h.mould.leaf? r with
      | none => .unknown
      | some none => .missed
      | some (some (kind, named)) => .found (ss ++ [.leaf none kind named h]) rest

/-- Only the first text is looked at; whether lexemes follow each other at once is left open. -/
def answerJoined (texts : List String) (ss : List Sketch) (input : List Hole) : Answer :=
  match texts, input with
  | t :: ts, h :: rest =>
      match h.mould.among? [t] with
      | none => .unknown
      | some false => .missed
      | some true => if ts.isEmpty then .found (ss ++ [.leaf none t false h]) rest else .unknown
  | _, _ => .unknown

def answerFinish (ss : List Sketch) : List Hole → Answer
  | [] => .unknown
  | h :: rest => if h.mould.kind = .finish then .found ss rest else .missed

def answerNext (wanted : Bool) (texts : List String) (ss : List Sketch) : List Hole → Answer
  | [] => .unknown
  | h :: rest =>
      match h.mould.among? texts with
      | none => .unknown
      | some b => if b = wanted then .found ss (h :: rest) else .missed

/-- Runs a rule on moulds. At their end nothing is known. -/
def answer (g : P → Rule P) : Nat → Rule P → List Sketch → List Hole → Answer
  | 0, _, _, _ => .unknown
  | fuel + 1, rule, ss, input =>
      match rule with
      | phrase p => (answer g fuel (g p) [] input).map (ss ++ ·)
      | lexeme r => answerLexeme r ss input
      | joined texts => answerJoined texts ss input
      | finish => answerFinish ss input
      | all [] => .found ss input
      | all (r :: rs) => (answer g fuel r ss input).andThen (answer g fuel (all rs))
      | any [] => .missed
      | any (r :: rs) => (answer g fuel r ss input).orElse fun _ => answer g fuel (any rs) ss input
      | many r =>
          match answer g fuel r ss input with
          | .unknown => .unknown
          | .missed => .found ss input
          | .found ts rest => answer g fuel (many r) ts rest
      | role r rule => (answer g fuel rule [] input).map fun ts => ss ++ Sketch.labelled r ts
      | node kind rule => (answer g fuel rule [] input).map fun ts => ss ++ Sketch.wrap kind ts
      | around kind r? rule =>
          (answer g fuel rule (Sketch.taken r? ss) input).map (Sketch.wrap kind)
      | next wanted texts => answerNext wanted texts ss input
      | after kinds =>
          if ss.getLast?.any fun s => kinds.contains s.kind then .found ss input else .missed

section Soundness

variable {tail : List Lexeme} {ss : List Sketch} {input : List Hole}

theorem answerLexeme_holds (r : LexemeRule) (hfilled : Filled ls input) :
    (answerLexeme r ss input).Holds ls tail
      (readLexeme r (Sketch.fillAll ls ss) (lexemesIn ls input ++ tail)) := by
  cases input with
  | nil => exact .unknown
  | cons h rest =>
      obtain ⟨hfits, hrest⟩ := hfilled.of_cons
      rw [answerLexeme, lexemesIn_cons, List.cons_append, readLexeme]
      split
      case h_1 => exact .unknown
      case h_2 hleaf =>
        rw [Mould.leaf?_eq_some hleaf hfits]
        exact .missed
      case h_3 kind named hleaf =>
        simp only [Mould.leaf?_eq_some hleaf hfits, Option.map_some, Sketch.leaves_eq hfits,
          ← Sketch.fillAll_append]
        exact .found hrest

theorem answerJoined_holds (texts : List String) (hfilled : Filled ls input) :
    (answerJoined texts ss input).Holds ls tail
      (readJoined texts (Sketch.fillAll ls ss) (lexemesIn ls input ++ tail)) := by
  cases texts with
  | nil => exact .unknown
  | cons t ts =>
      cases input with
      | nil => exact .unknown
      | cons h rest =>
          obtain ⟨hfits, hrest⟩ := hfilled.of_cons
          rw [answerJoined, lexemesIn_cons, List.cons_append, readJoined]
          split
          case h_1 => exact .unknown
          case h_2 hamong =>
            have hne : (ls h.place).text ≠ t := by simpa using Mould.among?_eq_some hamong hfits
            have hmiss : joined? (t :: ts) (ls h.place :: (lexemesIn ls rest ++ tail)) = none := by
              cases ts <;> simp [joined?, hne]
            rw [hmiss]
            exact .missed
          case h_3 hamong =>
            have ht : (ls h.place).text = t := by simpa using Mould.among?_eq_some hamong hfits
            cases ts with
            | nil =>
                simp only [joined?, ht, if_true, Option.map_some, Sketch.leaves_eq hfits,
                  ← Sketch.fillAll_append]
                exact .found hrest
            | cons u us => exact .unknown

theorem answerFinish_holds (hfilled : Filled ls input) :
    (answerFinish ss input).Holds ls tail
      (readFinish (Sketch.fillAll ls ss) (lexemesIn ls input ++ tail)) := by
  cases input with
  | nil => exact .unknown
  | cons h rest =>
      obtain ⟨hfits, hrest⟩ := hfilled.of_cons
      rw [answerFinish, lexemesIn_cons, List.cons_append, readFinish, hfits.kind, hfits.asides,
        List.map_nil, List.append_nil]
      split
      case isTrue => exact .found hrest
      case isFalse => exact .missed

theorem answerNext_holds (wanted : Bool) (texts : List String) (hfilled : Filled ls input) :
    (answerNext wanted texts ss input).Holds ls tail
      (if isNext texts (lexemesIn ls input ++ tail) = wanted then
        some (Sketch.fillAll ls ss, lexemesIn ls input ++ tail) else none) := by
  cases input with
  | nil => exact .unknown
  | cons h rest =>
      rw [answerNext]
      split
      case h_1 => exact .unknown
      case h_2 b hamong =>
        have hnext : isNext texts (lexemesIn ls (h :: rest) ++ tail) = b :=
          Mould.among?_eq_some hamong hfilled.of_cons.1
        rw [hnext]
        split
        case isTrue => exact .found hfilled
        case isFalse => exact .missed

theorem isAfter_fillAll (kinds : List String) (ss : List Sketch) :
    isAfter kinds (Sketch.fillAll ls ss) = ss.getLast?.any fun s => kinds.contains s.kind := by
  rw [isAfter, Sketch.fillAll_eq, List.getLast?_map, Option.any_map]
  simp

end Soundness

/-- **Answers hold.** What a run on moulds answers is what a run on such lexemes finds, also with more fuel and
    with other lexemes after them. -/
theorem answer_holds (g : P → Rule P) (ls : Nat → Lexeme) (tail : List Lexeme) :
    ∀ n rule ss input, Filled ls input → ∀ fuel, n ≤ fuel →
      (answer g n rule ss input).Holds ls tail
        (run g fuel rule (Sketch.fillAll ls ss) (lexemesIn ls input ++ tail)).found? := by
  -- By induction on the fuel of the run on moulds. Where it is short of fuel it answers nothing, so the other
  -- run may have more.
  intro n
  induction n with
  | zero => intro rule ss input _ fuel _; exact .unknown
  | succ n ih =>
      intro rule ss input hfilled fuel hfuel
      obtain ⟨fuel, rfl⟩ : ∃ more, fuel = more + 1 := Nat.exists_eq_add_one.mpr (Nat.zero_lt_of_lt hfuel)
      have ih : ∀ rule ss input, Filled ls input → (answer g n rule ss input).Holds ls tail
          (run g fuel rule (Sketch.fillAll ls ss) (lexemesIn ls input ++ tail)).found? :=
        fun rule ss input hfilled => ih rule ss input hfilled fuel (Nat.le_of_succ_le_succ hfuel)
      cases rule with
      | phrase p => exact (ih (g p) [] input hfilled).map (Sketch.fillAll_append ss)
      | lexeme r =>
          rw [answer, run, Outcome.found?_ofOption]
          exact answerLexeme_holds r hfilled
      | joined texts =>
          rw [answer, run, Outcome.found?_ofOption]
          exact answerJoined_holds texts hfilled
      | finish =>
          rw [answer, run, Outcome.found?_ofOption]
          exact answerFinish_holds hfilled
      | all rs =>
          cases rs with
          | nil => exact .found hfilled
          | cons r rs =>
              rw [answer, run, Outcome.found?_andThen]
              exact (ih r ss input hfilled).andThen
                (G := fun trees rest => (run g fuel (.all rs) trees rest).found?) (ih (.all rs))
      | any rs =>
          cases rs with
          | nil => exact .missed
          | cons r rs =>
              rw [answer, run, Outcome.found?_orElse]
              exact (ih r ss input hfilled).orElse (ih (.any rs) ss input hfilled)
      | many r =>
          -- what the first run leaves is unknown to both sides until it is one of the three answers
          rw [found?_run_many, answer]
          have hfirst := ih r ss input hfilled
          generalize answer g n r ss input = a, (run g fuel r _ _).found? = o at hfirst ⊢
          cases hfirst with
          | unknown => exact .unknown
          | missed => exact .found hfilled
          | found hrest => exact ih (.many r) _ _ hrest
      | role r rule =>
          refine (ih rule [] input hfilled).map (F := fun ts => ss ++ Sketch.labelled r ts)
            (G := fun ts => Sketch.fillAll ls ss ++ labelled r ts) fun ts => ?_
          rw [Sketch.fillAll_append, Sketch.fillAll_labelled]
      | node kind rule =>
          refine (ih rule [] input hfilled).map (F := fun ts => ss ++ Sketch.wrap kind ts)
            (G := fun ts => Sketch.fillAll ls ss ++ Tree.wrap kind ts) fun ts => ?_
          rw [Sketch.fillAll_append, Sketch.fillAll_wrap]
      | around kind r? rule =>
          have hinner := ih rule (Sketch.taken r? ss) input hfilled
          rw [Sketch.fillAll_taken] at hinner
          exact hinner.map (Sketch.fillAll_wrap kind)
      | next wanted texts =>
          rw [answer, run, apply_ite Outcome.found?]
          exact answerNext_holds wanted texts hfilled
      | after kinds =>
          rw [answer, run, isAfter_fillAll]
          split
          case isTrue => exact .found hfilled
          case isFalse => exact .missed

end Rule

/-! ## Answers to given moulds -/

/-- The lexeme at a place of a list. -/
def lexemeAt (ls : List Lexeme) (place : Nat) : Lexeme := (ls[place]?).getD ⟨.finish, "", [], "", 0, 0⟩

section Given

variable {P : Type} {g : P → Rule P} {n : Nat} {rule : Rule P} {moulds : List Mould} {ls : List Lexeme}

theorem lexemesIn_holes (hfits : List.Forall₂ Mould.Fits moulds ls) :
    lexemesIn (lexemeAt ls) (holes moulds) = ls := by
  refine List.ext_getElem (by simp [lexemesIn, holes, hfits.length_eq]) fun i _ hi => ?_
  simp [lexemesIn, holes, lexemeAt, hi]

theorem filled_holes (hfits : List.Forall₂ Mould.Fits moulds ls) :
    Filled (lexemeAt ls) (holes moulds) := by
  intro h hh
  obtain ⟨⟨m, i⟩, hm, rfl⟩ := List.mem_map.mp hh
  obtain ⟨hi, rfl⟩ := List.getElem?_eq_some_iff.mp (List.mk_mem_zipIdx_iff_getElem?.mp hm)
  have hls : i < ls.length := hfits.length_eq ▸ hi
  have hfit := (List.forall₂_iff_get.mp hfits).2 i hi hls
  simpa [lexemeAt, hls] using hfit

/-- A rule finds what a run on moulds answers. -/
theorem finds_of_answer {ss : List Sketch} {rest : List Hole}
    (h : Rule.answer g n rule [] (holes moulds) = .found ss rest)
    (hfits : List.Forall₂ Mould.Fits moulds ls) (tail : List Lexeme) :
    Rule.Finds g n rule [] (ls ++ tail)
      (some (Sketch.fillAll (lexemeAt ls) ss, lexemesIn (lexemeAt ls) rest ++ tail)) := by
  intro fuel hfuel
  have hholds := Rule.answer_holds g (lexemeAt ls) tail n rule [] _ (filled_holes hfits) fuel hfuel
  rw [h, lexemesIn_holes hfits] at hholds
  exact hholds.of_found

/-- A rule finds nothing if a run on moulds answers so. -/
theorem misses_of_answer (h : Rule.answer g n rule [] (holes moulds) = .missed)
    (hfits : List.Forall₂ Mould.Fits moulds ls) (tail : List Lexeme) :
    Rule.Finds g n rule [] (ls ++ tail) none := by
  intro fuel hfuel
  have hholds := Rule.answer_holds g (lexemeAt ls) tail n rule [] _ (filled_holes hfits) fuel hfuel
  rw [h, lexemesIn_holes hfits] at hholds
  exact hholds.of_missed

end Given

end AccessorScan
