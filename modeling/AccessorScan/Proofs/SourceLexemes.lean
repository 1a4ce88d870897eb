import AccessorScan.Proofs.Traits
import Mathlib.Data.List.TakeWhile

/-!
# `Proofs.SourceLexemes` — the lexemes of sources fit

Whatever a source holds, the lexemes that it is cut into have words without dots, literals of known
kinds and no asides but comments. Repairs keep this: they add marks, or turn lexemes into asides.

## Contents
- `firstLexeme_fits`, `isPlainName_word`: the first lexeme of a text.
- `Lexeme.fits_of_mem_lexemes`: all lexemes of a source.
- `Lexeme.fits_of_mem_repairs`: the same after a repair.
-/

namespace AccessorScan

/-! ## Kinds and words -/

theorem Extent.isFreeKind_number (cs : List Char) : isFreeKind (number cs).2 = true := by
  have hfold : ∀ (readings : List (Nat × String)) (first : Nat × String),
      isFreeKind first.2 = true → (∀ r ∈ readings, isFreeKind r.2 = true) →
        isFreeKind (readings.foldl longer first).2 = true := by
    intro readings
    induction readings with
    | nil => exact fun _ hfirst _ => hfirst
    | cons r readings ih =>
        intro first hfirst hall
        refine ih _ ?_ fun x hx => hall x (List.mem_cons_of_mem r hx)
        unfold longer
        split
        · exact hall r List.mem_cons_self
        · exact hfirst
  refine hfold _ _ (by decide) fun r hr => ?_
  simp only [List.mem_cons, List.not_mem_nil, or_false] at hr
  rcases hr with rfl | rfl | rfl | rfl | rfl | rfl <;>
    simp [isFreeKind, asideKinds, askedKinds, Tree.skippedKind]

/-- Lexemes of this kind fit, whatever their text is. -/
def LexemeKind.FitsAnyText (kind : LexemeKind) : Prop :=
  kind ≠ .word ∧ kind ≠ .supplied ∧ ∀ k, kind = .literal k → isFreeKind k = true

/-- What the first lexeme of a text may be. -/
theorem firstLexeme_fits {opened : List OpenString} {c : Char} (rest : List Char)
    (hstart : ¬ isIdentifierStart c = true) :
    (firstLexeme opened (c :: rest)).1.FitsAnyText := by
  have hother : ∀ kind ∈ [LexemeKind.string, .stringHead, .stringMiddle, .stringTail, .mark, .stray],
      kind.FitsAnyText := by
    intro kind hkind
    simp only [List.mem_cons, List.not_mem_nil, or_false] at hkind
    rcases hkind with rfl | rfl | rfl | rfl | rfl | rfl <;> exact ⟨nofun, nofun, nofun⟩
  have hliteral : ∀ k, isFreeKind k = true → (LexemeKind.literal k).FitsAnyText := by
    intro k hk
    exact ⟨nofun, nofun, fun _ h => LexemeKind.literal.inj h ▸ hk⟩
  have hnumber := Extent.isFreeKind_number (c :: rest)
  unfold firstLexeme
  simp only [if_neg hstart]
  split
  · -- a string literal or a text block
    split <;> split <;> exact hother _ (by simp)
  · split
    · -- a character
      split
      · exact hliteral _ (by decide)
      · exact hother _ (by simp)
    · split
      · -- the brace that ends what is embedded in a string
        split <;> exact hother _ (by simp)
      · exact hother _ (by simp)
      · exact hother _ (by simp)
      · -- a number or a mark
        split
        · exact hliteral _ hnumber
        · split <;> exact hother _ (by simp)

theorem comment?_kind {cs : List Char} {kind : String} {n : Nat}
    (h : comment? cs = some (kind, n)) : kind ∈ asideKinds := by
  unfold comment? at h
  split at h
  next => obtain ⟨rfl, -⟩ := Prod.mk.inj (Option.some.inj h); decide
  next =>
      obtain ⟨_, -, hkind⟩ := Option.map_eq_some_iff.mp h
      obtain ⟨rfl, -⟩ := Prod.mk.inj hkind
      decide
  next => cases h

/-- A word has no dot in it. -/
theorem isPlainName_word {c : Char} (hstart : isIdentifierStart c = true) (rest : List Char) :
    IsPlainName (String.ofList ((c :: rest).take (1 + Extent.run isIdentifierPart rest))) := by
  have htake : (c :: rest).take (1 + Extent.run isIdentifierPart rest) =
      c :: rest.takeWhile isIdentifierPart := by
    rw [Nat.add_comm, List.take_succ_cons, Extent.run]
    congr 1
    exact List.prefix_iff_eq_take.mp (List.takeWhile_prefix _) |>.symm
  rw [IsPlainName, String.toList_ofList, htake, List.mem_cons]
  rintro (rfl | hdot)
  · exact absurd hstart (by decide)
  · exact absurd (List.mem_takeWhile_imp hdot) (by decide)

/-- The first lexeme of a text fits. -/
theorem Lexeme.fits_firstLexeme {opened : List OpenString} {cs : List Char} {asides : List Aside}
    {blank : String} {line offset : Nat} (hcs : ¬ cs.isEmpty = true)
    (h : ∀ a ∈ asides, a.kind ∈ asideKinds) :
    Lexeme.Fits ⟨(firstLexeme opened cs).1, String.ofList (cs.take (firstLexeme opened cs).2.1),
      asides.reverse, blank, line, offset⟩ := by
  have hasides : ∀ a ∈ asides.reverse, a.kind ∈ asideKinds := fun a ha =>
    h a (List.mem_reverse.mp ha)
  cases cs with
  | nil => exact absurd rfl hcs
  | cons c rest =>
      by_cases hstart : isIdentifierStart c = true
      · have hword : firstLexeme opened (c :: rest) =
            (.word, 1 + Extent.run isIdentifierPart rest, opened) := by
          unfold firstLexeme
          simp only [if_pos hstart]
        rw [hword]
        exact ⟨fun _ => isPlainName_word hstart rest, nofun, nofun, hasides⟩
      · have hfits : (firstLexeme opened (c :: rest)).1.FitsAnyText := firstLexeme_fits rest hstart
        obtain ⟨hword, hsupplied, hliteral⟩ := hfits
        exact ⟨fun hk => absurd hk hword, hliteral, fun hk => absurd hk hsupplied, hasides⟩

/-- **Cutting.** The lexemes of a text fit if the comments before it do. -/
theorem Lexeme.fits_of_mem_cut {fuel : Nat} :
    ∀ {s : Cutter} {cs : List Char}, (∀ a ∈ s.comments, a.kind ∈ asideKinds) →
      ∀ l ∈ cut fuel s cs, l.Fits := by
  have hfinish : ∀ {asides : List Aside} {blank : String} {line offset : Nat},
      (∀ a ∈ asides, a.kind ∈ asideKinds) →
      Lexeme.Fits ⟨.finish, "", asides.reverse, blank, line, offset⟩ := by
    intro asides blank line offset h
    exact ⟨nofun, nofun, nofun, fun a ha => h a (List.mem_reverse.mp ha)⟩
  induction fuel with
  | zero =>
      intro s cs hs l hl
      obtain rfl := List.mem_singleton.mp hl
      exact hfinish hs
  | succ fuel ih =>
      intro s cs hs l hl
      rw [cut] at hl
      simp only at hl
      split at hl
      · obtain rfl := List.mem_singleton.mp hl
        exact hfinish hs
      · next hrest =>
        split at hl
        next kind n hcomment =>
            -- a comment waits for the lexeme behind it
            refine ih (fun a ha => ?_) l hl
            rcases List.mem_cons.mp ha with rfl | ha
            · exact comment?_kind hcomment
            · exact hs a ha
        next =>
            rcases List.mem_cons.mp hl with rfl | hl
            · exact fits_firstLexeme hrest hs
            · exact ih (fun a ha => absurd ha List.not_mem_nil) l hl

theorem Lexeme.fits_of_mem_lexemes {source : String} : ∀ l ∈ lexemes source, l.Fits :=
  Lexeme.fits_of_mem_cut fun _ ha => absurd ha List.not_mem_nil

/-! ## Repairs -/

theorem Lexeme.fits_of_mem_supply {mark : String} {place : Nat} {ls : List Lexeme}
    (hmark : mark ∈ suppliedMarks) (h : ∀ l ∈ ls, l.Fits) : ∀ l ∈ supply mark place ls, l.Fits := by
  induction ls with
  | nil => exact fun _ hl => absurd hl List.not_mem_nil
  | cons x ls ih =>
      intro l hl
      rw [supply] at hl
      split at hl
      · rcases List.mem_cons.mp hl with rfl | hl
        · exact ⟨nofun, nofun, fun _ => hmark, fun _ ha => absurd ha List.not_mem_nil⟩
        · exact h l hl
      · rcases List.mem_cons.mp hl with rfl | hl
        · exact h l List.mem_cons_self
        · exact ih (fun y hy => h y (List.mem_cons_of_mem x hy)) l hl

theorem Lexeme.fits_of_mem_skip {place : Nat} {ls : List Lexeme} (h : ∀ l ∈ ls, l.Fits) :
    ∀ l ∈ skip place ls, l.Fits := by
  induction ls with
  | nil => exact fun _ hl => absurd hl List.not_mem_nil
  | cons x ls ih =>
      cases ls with
      | nil => exact h
      | cons next ls =>
          intro l hl
          rw [skip] at hl
          have hx := h x List.mem_cons_self
          have hnext := h next (List.mem_cons_of_mem x List.mem_cons_self)
          split at hl
          · -- the skipped lexeme becomes an aside of the one behind it
            rcases List.mem_cons.mp hl with rfl | hl
            · refine ⟨hnext.word, hnext.literal, hnext.supplied, fun a ha => ?_⟩
              simp only [List.mem_append, List.mem_singleton] at ha
              rcases ha with (ha | rfl) | ha
              · exact hx.asides a ha
              · show Tree.skippedKind ∈ asideKinds
                decide
              · exact hnext.asides a ha
            · exact h l (List.mem_cons_of_mem x (List.mem_cons_of_mem next hl))
          · rcases List.mem_cons.mp hl with rfl | hl
            · exact hx
            · exact ih (fun y hy => h y (List.mem_cons_of_mem x hy)) l hl

theorem Lexeme.fits_of_mem_repairs {place : Nat} {ls r : List Lexeme} (h : ∀ l ∈ ls, l.Fits)
    (hr : r ∈ repairs place ls) : ∀ l ∈ r, l.Fits := by
  rcases List.mem_append.mp hr with hr | hr
  · obtain ⟨mark, hmark, rfl⟩ := List.mem_map.mp hr
    exact fits_of_mem_supply hmark h
  · obtain rfl := List.mem_singleton.mp hr
    exact fits_of_mem_skip h

end AccessorScan
