import AccessorScan.Proofs.SourceTrees
import AccessorScan.Proofs.Tokens

/-!
# `Proofs.Spelling` — the tree of an unbroken source spells it

Cutting loses nothing of a source and counts its lines, and a reading puts all lexemes into the tree. A
repair cannot be undone: what it supplied or passed over is in the tree in the end. So where nothing of this
kind is in the tree, the leaves spell the source from its front, and each one is on the line that it says.

## Contents
- `Cutter.Waits`, `Writes`, `writes_cut`: the lexemes of a text.
- `IsClosed`, `HasMarked`: what repairs keep; `repairs_of_mem`.
- `readProgram_spells`, `anyBroken_of_repaired`: what is read of lexemes, and after repairs.
- `found_of_unbroken`: an unbroken source is read without repairs.
- `syntaxTree_spells`.
-/

namespace AccessorScan

/-! ## Cutting -/

/-- The lexemes `front`, and before the end `last` of the source its asides, write the text `text` from the
    line `n` on. -/
structure Writes (n : Nat) (text : String) (front : List Lexeme) (last : Lexeme) : Prop where
  finish : last.kind = .finish
  written : ∀ l ∈ front, l.IsWritten
  spelled : spelled (plainTokens front ++ last.asides.map Aside.token) ++ last.blank = text
  lined : LinedFrom n (plainTokens front ++ last.asides.map Aside.token)

theorem breaks_ofList (cs : List Char) : breaks (String.ofList cs) = lineBreaks cs := by
  rw [breaks, String.toList_ofList]

/-- The first lexeme of a text is written in it. -/
theorem firstLexeme_written (opened : List OpenString) (cs : List Char) :
    (firstLexeme opened cs).1 ≠ .supplied ∧ (firstLexeme opened cs).1 ≠ .finish := by
  unfold firstLexeme
  simp only
  repeat' split
  all_goals exact ⟨nofun, nofun⟩

namespace Cutter

variable {s : Cutter} {n : Nat}

/-- The leaves for the comments that wait for the next lexeme. -/
def pending (s : Cutter) : List Token := s.comments.reverse.map Aside.token

/-- The comments that wait start on the line `n`, and the cutter is on the line where they end. -/
structure Waits (s : Cutter) (n : Nat) : Prop where
  lined : LinedFrom n s.pending
  line : s.line = n + breaks (spelled s.pending)

/-- One more comment waits. -/
def withComment (s : Cutter) (blank text : List Char) (kind : String) (offset : Nat) : Cutter :=
  ⟨s.line + lineBreaks blank + lineBreaks text, offset,
    ⟨String.ofList blank, kind, String.ofList text, s.line + lineBreaks blank⟩ :: s.comments, s.opened⟩

/-- The lexeme of these characters, with the comments that waited for it. -/
def lexeme (s : Cutter) (blank text : List Char) (kind : LexemeKind) : Lexeme :=
  ⟨kind, String.ofList text, s.comments.reverse, String.ofList blank, s.line + lineBreaks blank,
    s.offset + blank.length⟩

theorem spelled_withComment (s : Cutter) (blank text : List Char) (kind : String) (offset : Nat) :
    spelled (s.withComment blank text kind offset).pending =
      spelled s.pending ++ (String.ofList blank ++ String.ofList text) := by
  simp [pending, withComment, spelled_append, spelled, Aside.token]

theorem Waits.withComment (h : s.Waits n) (blank text : List Char) (kind : String) (offset : Nat) :
    (s.withComment blank text kind offset).Waits n := by
  refine ⟨?_, ?_⟩
  · simp only [pending, Cutter.withComment, List.reverse_cons, List.map_append, List.map_singleton]
    refine linedFrom_append.mpr ⟨h.lined, ?_, trivial⟩
    show s.line + lineBreaks blank = n + breaks (spelled s.pending) + breaks (String.ofList blank)
    rw [breaks_ofList, h.line]
  · rw [spelled_withComment, breaks_append, breaks_append, breaks_ofList, breaks_ofList, ← Nat.add_assoc,
      ← Nat.add_assoc, ← h.line]
    rfl

end Cutter

/-- A lexeme behind the comments that waited for it, and what is written behind the lexeme. -/
theorem writes_lexeme {s : Cutter} {n : Nat} (hs : s.Waits n) {kind : LexemeKind} {blank text : List Char}
    {rest : String} {front : List Lexeme} {last : Lexeme} (hkind : kind ≠ .supplied ∧ kind ≠ .finish)
    (h : Writes (s.line + lineBreaks blank + lineBreaks text) rest front last) :
    Writes n (spelled s.pending ++ (String.ofList blank ++ String.ofList text ++ rest))
      (s.lexeme blank text kind :: front) last := by
  have hwritten : (s.lexeme blank text kind).IsWritten := hkind
  have htoken : (s.lexeme blank text kind).token "" false =
      ⟨"", false, false, String.ofList blank, String.ofList text, s.line + lineBreaks blank⟩ := by
    simp [Lexeme.token, Cutter.lexeme, hkind.1]
  have hleaves : plainTokens (s.lexeme blank text kind :: front) =
      s.pending ++ ([(s.lexeme blank text kind).token "" false] ++ plainTokens front) :=
    plainTokens_cons _ _
  refine ⟨h.finish, List.forall_mem_cons.mpr ⟨hwritten, h.written⟩, ?_, ?_⟩
  · rw [hleaves, htoken, List.append_assoc, List.append_assoc, spelled_append, spelled_append,
      String.append_assoc, String.append_assoc, h.spelled]
    simp only [spelled, String.append_empty]
  · rw [hleaves, htoken, List.append_assoc, List.append_assoc, linedFrom_append, ← hs.line,
      List.singleton_append]
    refine ⟨hs.lined, ?_, ?_⟩
    · rw [breaks_ofList]
    · rw [breaks_append, breaks_ofList, breaks_ofList, ← Nat.add_assoc]
      exact h.lined

/-- **Cutting.** The lexemes of a text write the comments that wait for the first of them, and the text. -/
theorem writes_cut {fuel n : Nat} {s : Cutter} (hs : s.Waits n) (cs : List Char) :
    ∃ front last, cut fuel s cs = front ++ [last] ∧
      Writes n (spelled s.pending ++ String.ofList cs) front last := by
  induction fuel generalizing n s cs with
  | zero => exact ⟨[], _, rfl, rfl, nofun, rfl, hs.lined⟩
  | succ fuel ih =>
      have hcs : String.ofList cs =
          String.ofList (cs.takeWhile isBlankChar) ++ String.ofList (cs.dropWhile isBlankChar) := by
        rw [← String.ofList_append, List.takeWhile_append_dropWhile]
      have hsplit : ∀ (rest : List Char) (k : Nat), String.ofList rest =
          String.ofList (rest.take k) ++ String.ofList (rest.drop k) := fun rest k => by
        rw [← String.ofList_append, List.take_append_drop]
      rw [cut]
      simp only
      split
      next hrest =>
          -- nothing but blanks is left
          rw [List.isEmpty_iff] at hrest
          refine ⟨[], _, rfl, rfl, nofun, ?_, hs.lined⟩
          rw [hcs, hrest, String.ofList_nil, String.append_empty]
          rfl
      next =>
          generalize cs.takeWhile isBlankChar = blank at hcs ⊢
          generalize cs.dropWhile isBlankChar = rest at hcs ⊢
          split
          next kind k _ =>
              -- the comment waits with the others
              have hwaits := hs.withComment blank (rest.take k) kind (s.offset + blank.length + k)
              have hwrites := ih hwaits (rest.drop k)
              rw [Cutter.spelled_withComment, String.append_assoc, String.append_assoc, ← hsplit, ← hcs]
                at hwrites
              exact hwrites
          next =>
              have hkind := firstLexeme_written s.opened rest
              generalize firstLexeme s.opened rest = first at hkind ⊢
              obtain ⟨kind, k, opened⟩ := first
              obtain ⟨front, last, hcut, hwrites⟩ := ih
                (s := ⟨s.line + lineBreaks blank + lineBreaks (rest.take k), s.offset + blank.length + k, [],
                  opened⟩) ⟨trivial, rfl⟩ (rest.drop k)
              have hbehind := writes_lexeme hs hkind (String.empty_append ▸ hwrites)
              rw [String.append_assoc, ← hsplit, ← hcs] at hbehind
              exact ⟨_ :: front, last, congrArg (List.cons _) hcut, hbehind⟩

/-! ## Repairs -/

/-- The end of the source stands at the end of the lexemes, and nowhere else. -/
inductive IsClosed : List Lexeme → Prop where
  | last {l : Lexeme} (h : l.kind = .finish) : IsClosed [l]
  | cons {l : Lexeme} {ls : List Lexeme} (h : l.kind ≠ .finish) (hls : IsClosed ls) : IsClosed (l :: ls)

/-- A repair left something behind among the lexemes. -/
def HasMarked (ls : List Lexeme) : Prop := ∃ l ∈ ls, l.IsMarked

theorem HasMarked.tail {l : Lexeme} {ls : List Lexeme} (h : HasMarked ls) : HasMarked (l :: ls) := by
  obtain ⟨x, hx, hmark⟩ := h
  exact ⟨x, List.mem_cons_of_mem l hx, hmark⟩

theorem hasMarked_cons {l : Lexeme} {ls : List Lexeme} :
    HasMarked (l :: ls) ↔ l.IsMarked ∨ HasMarked ls := by
  simp [HasMarked]

theorem isClosed_append {front : List Lexeme} {last : Lexeme} (hfront : ∀ l ∈ front, l.kind ≠ .finish)
    (hlast : last.kind = .finish) : IsClosed (front ++ [last]) := by
  induction front with
  | nil => exact .last hlast
  | cons l front ih =>
      exact .cons (hfront l List.mem_cons_self) (ih fun x hx => hfront x (List.mem_cons_of_mem l hx))

/-- Nothing stands behind the end of the source. -/
theorem IsClosed.eq_nil {used rest : List Lexeme} {l : Lexeme} (h : IsClosed (used ++ l :: rest))
    (hl : l.kind = .finish) : rest = [] ∧ ∀ x ∈ used, x.kind ≠ .finish := by
  induction used with
  | nil =>
      refine ⟨?_, nofun⟩
      cases h with
      | last _ => rfl
      | cons hl' _ => exact absurd hl hl'
  | cons u used ih =>
      rw [List.cons_append] at h
      generalize hall : used ++ l :: rest = all at h ih
      cases h with
      | last _ => simp at hall
      | cons hu hrest =>
          obtain ⟨hnil, hused⟩ := ih hrest
          refine ⟨hnil, fun x hx => ?_⟩
          rcases List.mem_cons.mp hx with rfl | hx
          · exact hu
          · exact hused x hx

/-- What a repair `r` of the lexemes `ls` comes to. -/
structure Repairs (ls r : List Lexeme) : Prop where
  closed : IsClosed ls → IsClosed r
  marked : HasMarked ls → HasMarked r
  changed : r = ls ∨ HasMarked r

theorem repairs_supply (mark : String) (place : Nat) (ls : List Lexeme) :
    Repairs ls (supply mark place ls) := by
  induction ls with
  | nil => exact ⟨id, id, .inl rfl⟩
  | cons l ls ih =>
      rw [supply]
      split
      · exact ⟨fun h => .cons (by simp) h, fun h => h.tail, .inr ⟨_, List.mem_cons_self, .inl rfl⟩⟩
      · refine ⟨fun h => ?_, fun h => ?_, ?_⟩
        · cases h with
          | last h => exact .last h
          | cons h hls => exact .cons h (ih.closed hls)
        · rw [hasMarked_cons] at h ⊢
          exact h.imp_right ih.marked
        · rcases ih.changed with hsame | hmarked
          · exact .inl (by rw [hsame])
          · exact .inr hmarked.tail

theorem repairs_skip (place : Nat) (ls : List Lexeme) : Repairs ls (skip place ls) := by
  induction ls with
  | nil => exact ⟨id, id, .inl rfl⟩
  | cons l ls ih =>
      cases ls with
      | nil => exact ⟨id, id, .inl rfl⟩
      | cons next ls =>
          rw [skip]
          split
          · -- what is passed over is an aside of the lexeme behind it
            have hmarked : Lexeme.IsMarked { next with asides := l.asides ++ [l.skipped] ++ next.asides } :=
              .inr ⟨l.skipped, by simp, rfl⟩
            refine ⟨fun h => ?_, fun _ => ⟨_, List.mem_cons_self, hmarked⟩,
              .inr ⟨_, List.mem_cons_self, hmarked⟩⟩
            cases h with | cons _ h =>
            cases h with
            | last h => exact .last h
            | cons h hls => exact .cons h hls
          · refine ⟨fun h => ?_, fun h => ?_, ?_⟩
            · cases h with
              | cons h hls => exact .cons h (ih.closed hls)
            · rw [hasMarked_cons] at h ⊢
              exact h.imp_right ih.marked
            · rcases ih.changed with hsame | hmarked
              · exact .inl (by rw [hsame])
              · exact .inr hmarked.tail

theorem repairs_of_mem {place : Nat} {ls r : List Lexeme} (h : r ∈ repairs place ls) : Repairs ls r := by
  rcases List.mem_append.mp h with h | h
  · obtain ⟨mark, -, rfl⟩ := List.mem_map.mp h
    exact repairs_supply mark place ls
  · obtain rfl := List.mem_singleton.mp h
    exact repairs_skip place ls

/-! ## Reading -/

/-- **A program** spells all its lexemes. Of the end of the source it has only what stands before it. -/
theorem readProgram_spells {ls rest : List Lexeme} {ts : List Tree} (hls : ∀ l ∈ ls, l.Fits)
    (hclosed : IsClosed ls) (h : (readProgram ls).found? = some (ts, rest)) :
    ∃ front last added, ls = front ++ [last] ∧ last.kind = .finish ∧
      Tree.tokensAll ts = added ++ last.asides.map Aside.token ∧ Spells front added := by
  rw [readProgram] at h
  cases Rule.reads_of_run h with | phrase h =>
  change Rule.Reads grammar (.all [.many (.phrase .topLevel), .finish]) [] ls _ rest at h
  cases h with | @allCons _ _ _ mid _ _ between _ hmany hend =>
  cases hend with | allCons hfinish hnil =>
  cases hnil
  cases hfinish with | finish hfinish =>
  obtain ⟨used, added, rfl, hmid, hspells⟩ :=
    Rule.spells_of_reads Phrase.keepsWhole_all hmany rfl hls
  cases between with
  | nil => cases hfinish
  | cons l between =>
      obtain ⟨hkind, hts⟩ := Option.ite_none_right_eq_some.mp hfinish
      obtain ⟨rfl, rfl⟩ := Prod.mk.inj (Option.some.inj hts)
      obtain ⟨rfl, -⟩ := hclosed.eq_nil hkind
      refine ⟨used, l, added, rfl, hkind, ?_, hspells⟩
      rw [List.nil_append, Tree.tokensAll_append, hmid, Tree.tokensAll_asideLeaves, Tree.tokensAll,
        List.nil_append]

theorem anyBroken_of_hasMarked {ls rest : List Lexeme} {ts : List Tree} (hls : ∀ l ∈ ls, l.Fits)
    (hclosed : IsClosed ls) (hmarked : HasMarked ls) (h : (readProgram ls).found? = some (ts, rest)) :
    Tree.anyBroken ts = true := by
  obtain ⟨front, last, added, rfl, hlast, htokens, hspells⟩ := readProgram_spells hls hclosed h
  have hbroken := (hspells.append (.finish hlast)).broken hmarked
  rw [Tree.anyBroken_iff, htokens]
  exact hbroken

/-- **Repairs show.** Where a source had to be repaired, its tree is broken. -/
theorem anyBroken_of_repaired {n : Nat} :
    ∀ {ls : List Lexeme} {reach : Nat} {ts : List Tree}, (∀ l ∈ ls, l.Fits) → IsClosed ls →
      (readProgram ls).found? = none ∨ HasMarked ls → repaired readProgram n ls reach = some ts →
        Tree.anyBroken ts = true := by
  induction n with
  | zero => intro ls reach ts _ _ _ h; cases h
  | succ n ih =>
      intro ls reach ts hls hclosed hunread h
      obtain ⟨r, hr, hread⟩ := repaired_succ h
      have hrepairs := repairs_of_mem hr
      have hfits := Lexeme.fits_of_mem_repairs hls hr
      -- a repair that changes nothing leaves what cannot be read
      have hstill : (readProgram r).found? = none ∨ HasMarked r := by
        rcases hunread with hnone | hmarked
        · rcases hrepairs.changed with rfl | hmarked
          · exact .inl hnone
          · exact .inr hmarked
        · exact .inr (hrepairs.marked hmarked)
      rcases hread with ⟨rest, hfound⟩ | hlater
      · rcases hstill with hnone | hmarked
        · rw [hnone] at hfound
          cases hfound
        · exact anyBroken_of_hasMarked hfits (hrepairs.closed hclosed) hmarked hfound
      · exact ih hfits (hrepairs.closed hclosed) hstill hlater

/-! ## Sources -/

/-- The mark that may stand in front of a source. -/
def orderMark : String := "\ufeff"

theorem exists_mark_append (source : String) :
    ∃ mark, (mark = "" ∨ mark = orderMark) ∧
      source = mark ++ String.ofList (withoutOrderMark source.toList) := by
  have hsource : source = String.ofList source.toList := String.ofList_toList.symm
  unfold withoutOrderMark
  split
  next c rest hcs =>
      split
      next hmark =>
          have hc : c = '\ufeff' := Char.toNat_inj.mp hmark
          refine ⟨orderMark, .inr rfl, ?_⟩
          rw [hsource, hcs, hc, ← List.singleton_append, String.ofList_append]
          rfl
      next => exact ⟨"", .inl rfl, by rw [String.empty_append, ← hsource]⟩
  next hcs => exact ⟨"", .inl rfl, by rw [hsource, hcs]; rfl⟩

/-- The lexemes of a source write it, a mark of the order of bytes apart. -/
theorem writes_lexemes (source : String) :
    ∃ front last, lexemes source = front ++ [last] ∧
      Writes 1 (String.ofList (withoutOrderMark source.toList)) front last := by
  have hstart : Cutter.Waits ⟨1, 0, [], []⟩ 1 := ⟨trivial, rfl⟩
  obtain ⟨front, last, hcut, hwrites⟩ := writes_cut hstart (withoutOrderMark source.toList)
  -- no comment waits at the front
  rw [show spelled (Cutter.pending ⟨1, 0, [], []⟩) = "" from rfl, String.empty_append] at hwrites
  exact ⟨front, last, hcut, hwrites⟩

theorem isClosed_lexemes (source : String) : IsClosed (lexemes source) := by
  obtain ⟨front, last, hls, hwrites⟩ := writes_lexemes source
  rw [hls]
  exact isClosed_append (fun l hl => (hwrites.written l hl).2) hwrites.finish

/-- An unbroken source is read without repairs. -/
theorem found_of_unbroken {source : String} (h : (syntaxTree source).isBroken = false) :
    ∃ ts rest, (readProgram (lexemes source)).found? = some (ts, rest) ∧
      syntaxTree source = programNode ts := by
  unfold syntaxTree at h ⊢
  simp only at h ⊢
  split at h
  next ts rest hfound => exact ⟨ts, rest, hfound, rfl⟩
  next hnone =>
      cases hrepaired : repaired readProgram repairLimit (lexemes source)
          (readProgram (lexemes source)).reach with
      | some ts =>
          have hbroken : Tree.anyBroken ts = true := anyBroken_of_repaired Lexeme.fits_of_mem_lexemes
            (isClosed_lexemes source) (.inl hnone) hrepaired
          rw [hrepaired] at h
          exact absurd (h.symm.trans hbroken) Bool.false_ne_true
      | none =>
          rw [hrepaired] at h
          cases h

/-- **Unbroken sources.** The leaves of the tree spell the source from its front, a mark of the order of bytes
    apart, and are on the lines that they say. -/
theorem syntaxTree_spells {source : String} (h : (syntaxTree source).isBroken = false) :
    ∃ ts, syntaxTree source = programNode ts ∧ LinedFrom 1 (Tree.tokensAll ts) ∧
      ∃ mark after, (mark = "" ∨ mark = orderMark) ∧ source = mark ++ Tree.coveredAll ts ++ after := by
  obtain ⟨ts, rest, hfound, htree⟩ := found_of_unbroken h
  obtain ⟨front, last, hls, hwrites⟩ := writes_lexemes source
  obtain ⟨front', last', added, hls', -, htokens, hspells⟩ :=
    readProgram_spells Lexeme.fits_of_mem_lexemes (isClosed_lexemes source) hfound
  obtain ⟨rfl, hlast⟩ := List.append_inj' (hls.symm.trans hls') rfl
  obtain rfl := List.singleton_inj.mp hlast
  have hadded := hspells.spelled_eq hwrites.written
  refine ⟨ts, htree, ?_, ?_⟩
  · rw [htokens, linedFrom_append, hadded]
    have hlined := linedFrom_append.mp hwrites.lined
    exact ⟨hspells.linedFrom hwrites.written hlined.1, hlined.2⟩
  · obtain ⟨mark, hmark, hsource⟩ := exists_mark_append source
    refine ⟨mark, last.blank, hmark, ?_⟩
    have htext := hwrites.spelled
    rw [spelled_append, ← hadded, ← spelled_append, ← htokens, ← Tree.coveredAll_eq] at htext
    rw [String.append_assoc, htext]
    exact hsource

end AccessorScan
