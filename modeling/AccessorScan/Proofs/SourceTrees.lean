import AccessorScan.Proofs.Declarations
import AccessorScan.Proofs.GrammarCheck
import AccessorScan.Proofs.SourceLexemes
import AccessorScan.Report.Source

/-!
# `Proofs.SourceTrees` — the trees of sources fit

The grammar makes only trees that fit of lexemes that fit, and cutting and repairing a source leave no
others. Hence every tree that is made of a source, broken or not, is as the grammar says, and the names
that it declares are plain.

## Contents
- `readProgram_collected`: a source that is read.
- `repaired_read`, `syntaxTree_read`: what holds of all that is read holds of the trees of sources.
- `syntaxTree_everywhere`, `syntaxTree_fitsGrammar`, `syntaxTree_fitsWords`, …: the tree of a source.
- `SourceModel.hasPlainNames`: the names in it.
-/

namespace AccessorScan

/-! ## Reading and repairing -/

theorem foldl_betterRepair_mem (first : List Lexeme × Outcome)
    (others : List (List Lexeme × Outcome)) :
    others.foldl betterRepair first ∈ first :: others := by
  induction others generalizing first with
  | nil => exact List.mem_singleton_self first
  | cons x others ih =>
      have hbetter : betterRepair first x = first ∨ betterRepair first x = x := by
        unfold betterRepair
        split
        · exact .inl rfl
        · split
          · exact .inr rfl
          · exact .inl rfl
      rw [List.foldl_cons]
      rcases List.mem_cons.mp (ih (betterRepair first x)) with h | h
      · rw [h]
        rcases hbetter with hb | hb
        · rw [hb]
          exact List.mem_cons_self
        · rw [hb]
          exact List.mem_cons_of_mem first List.mem_cons_self
      · exact List.mem_cons_of_mem first (List.mem_cons_of_mem x h)

theorem readProgram_collected {ls rest : List Lexeme} {ts : List Tree} (hls : ∀ l ∈ ls, l.Fits)
    (h : (readProgram ls).found? = some (ts, rest)) : Collected none [] ts := by
  have hgrammar : ∀ p, Rule.check Phrase.promised none (grammar p) [] = true ∧
      ∀ x ∈ Phrase.promised p, x ∈ Rule.traits Phrase.promised (grammar p) [] := by
    intro p
    obtain ⟨hcheck, hkeeps⟩ := Bool.and_eq_true_iff.mp p.isChecked_all
    exact ⟨hcheck, fun x hx => List.contains_iff_mem.mp (List.all_eq_true.mp hkeeps x hx)⟩
  rw [readProgram] at h
  exact (Rule.reads_collected hgrammar (Rule.reads_of_run h) rfl .nil hls).1

/-- One repair: the source is read after it, or more repairs follow. -/
theorem repaired_succ {read : List Lexeme → Outcome} {n : Nat} {ls : List Lexeme} {reach : Nat}
    {ts : List Tree} (h : repaired read (n + 1) ls reach = some ts) :
    ∃ r ∈ repairs (reach - 1) ls, (∃ rest, (read r).found? = some (ts, rest)) ∨
      repaired read n r (read r).reach = some ts := by
  have hall : ∀ x ∈ (repairs (reach - 1) ls).map fun r => (r, read r),
      ∃ r ∈ repairs (reach - 1) ls, (r, read r) = x := fun x hx => List.mem_map.mp hx
  rw [repaired] at h
  simp only at h
  split at h
  next => cases h
  next first others htried =>
      rw [htried] at hall
      -- whichever repair came out best, it is one of those tried
      obtain ⟨r, hr, hbest⟩ := hall _ (foldl_betterRepair_mem first others)
      rw [← hbest] at h
      simp only at h
      refine ⟨r, hr, ?_⟩
      split at h
      next trees rest hfound =>
          obtain rfl := Option.some.inj h
          exact .inl ⟨rest, hfound⟩
      next => exact .inr h

section Read

variable {Q : List Tree → Prop}
  (hread : ∀ {ls rest : List Lexeme} {ts : List Tree}, (∀ l ∈ ls, l.Fits) →
    (readProgram ls).found? = some (ts, rest) → Q ts)

include hread

/-- What holds of all that is read of lexemes that fit holds after repairs, too. -/
theorem repaired_read {n : Nat} :
    ∀ {ls : List Lexeme} {reach : Nat} {ts : List Tree}, (∀ l ∈ ls, l.Fits) →
      repaired readProgram n ls reach = some ts → Q ts := by
  induction n with
  | zero => intro ls reach ts _ h; cases h
  | succ n ih =>
      intro ls reach ts hls h
      obtain ⟨r, hr, ⟨rest, hfound⟩ | hlater⟩ := repaired_succ h
      · exact hread (Lexeme.fits_of_mem_repairs hls hr) hfound
      · exact ih (Lexeme.fits_of_mem_repairs hls hr) hlater

/-- What holds of all that is read of lexemes that fit, and of a lone aside, holds of the parts of every
    source. -/
theorem syntaxTree_read (haside : ∀ text : String, Q [(Aside.mk "" Tree.skippedKind text 1).leaf])
    (source : String) : ∃ ts, syntaxTree source = programNode ts ∧ Q ts := by
  have hlexemes : ∀ l ∈ lexemes source, l.Fits := Lexeme.fits_of_mem_lexemes
  unfold syntaxTree
  simp only
  split
  next ts rest hfound => exact ⟨ts, rfl, hread hlexemes hfound⟩
  next =>
      cases hrepaired : repaired readProgram repairLimit (lexemes source)
          (readProgram (lexemes source)).reach with
      | some ts => exact ⟨ts, rfl, repaired_read hread hlexemes hrepaired⟩
      | none =>
          -- after too many repairs all of the source is one aside
          exact ⟨_, rfl, haside source⟩

end Read

/-- **Trees of sources.** Every node of the tree of a source is as the grammar makes it, whether or not
    the source had to be repaired. -/
theorem syntaxTree_everywhere (source : String) :
    (syntaxTree source).everywhere Tree.isGood = true := by
  have haside : ∀ text : String, Collected none [] [(Aside.mk "" Tree.skippedKind text 1).leaf] := by
    intro text
    have hkind : ∀ a ∈ [Aside.mk "" Tree.skippedKind text 1], a.kind ∈ asideKinds := by
      intro a ha
      obtain rfl := List.mem_singleton.mp ha
      show Tree.skippedKind ∈ asideKinds
      decide
    exact .asideLeaves hkind
  obtain ⟨ts, hts, h⟩ := syntaxTree_read readProgram_collected haside source
  have hsuffice : Trait.suffice "program" [] = true := by decide
  rw [hts]
  refine Tree.everywhere_iff.mpr ⟨?_, h.good⟩
  exact Trait.isGood_of_suffice hsuffice h.traits (h.roles "program" nofun)

theorem Tree.isGood_iff {t : Tree} : t.isGood = true ↔
    t.fitsKind = true ∧ t.plainNames = true ∧ t.fitsWords = true ∧ t.fitsDeclaration = true := by
  simp only [isGood, Bool.and_eq_true, and_assoc]

theorem syntaxTree_fitsGrammar (source : String) : (syntaxTree source).FitsGrammar :=
  Tree.everywhere_mono (fun _ h => (Tree.isGood_iff.mp h).1) (syntaxTree_everywhere source)

theorem syntaxTree_plainNames (source : String) :
    (syntaxTree source).everywhere Tree.plainNames = true :=
  Tree.everywhere_mono (fun _ h => (Tree.isGood_iff.mp h).2.1) (syntaxTree_everywhere source)

theorem syntaxTree_fitsWords (source : String) : (syntaxTree source).FitsWords :=
  Tree.everywhere_mono (fun _ h => (Tree.isGood_iff.mp h).2.2.1) (syntaxTree_everywhere source)

theorem syntaxTree_fitsDeclarations (source : String) : (syntaxTree source).FitsDeclarations :=
  Tree.everywhere_mono (fun _ h => (Tree.isGood_iff.mp h).2.2.2) (syntaxTree_everywhere source)

/-! ## The names of a source -/

theorem Tree.isPlainName_partText {t : Tree} (h : t.plainNames = true)
    (hkind : t.kind ≠ "module_declaration") : IsPlainName (t.partText .name) := by
  rw [plainNames, Bool.or_eq_true, beq_iff_eq, or_iff_right hkind, List.all_eq_true] at h
  rw [partText]
  cases hname : t.part? .name with
  | none => decide
  | some name => exact of_decide_eq_true (h name (List.mem_of_head? hname))

/-- What a member that is no type declares is its own name. -/
theorem Member.plain_of_mem_listOfPart {t : Tree} (h : t.plainNames = true) {m : Member}
    (hm : m ∈ listOfPart t) : ∀ n ∈ m.declaredNames, IsPlainName n := by
  have hname : t.kind ≠ "module_declaration" → ∀ n ∈ [t.partText .name], IsPlainName n := by
    intro hkind n hn
    obtain rfl := List.mem_singleton.mp hn
    exact Tree.isPlainName_partText h hkind
  unfold listOfPart at hm
  split at hm
  next => obtain ⟨f, -, rfl⟩ := List.mem_map.mp hm; exact nofun
  next => obtain ⟨f, -, rfl⟩ := List.mem_map.mp hm; exact nofun
  next hkind => obtain rfl := List.mem_singleton.mp hm; exact hname (by simp [hkind])
  next hkind => obtain rfl := List.mem_singleton.mp hm; exact hname (by simp [hkind])
  next hkind => obtain rfl := List.mem_singleton.mp hm; exact hname (by simp [hkind])
  next => cases hm
  next => cases hm
  next => obtain rfl := List.mem_singleton.mp hm; exact nofun

/-- The names that a tree with plain names declares are plain. -/
theorem Tree.plain_of_mem_declaredNames (t : Tree) :
    ∀ {d : TypeDecl}, TypeDecl.ofTree? t = some d → t.everywhere plainNames = true →
      ∀ n ∈ d.declaredNames, IsPlainName n := by
  induction t using Tree.declared_induction with
  | step t ih =>
      intro d hd ht n hn
      have hplain : t.plainNames = true := (everywhere_iff.mp ht).1
      rw [TypeDecl.declaredNames_eq, TypeDecl.members_of_ofTree? hd, List.mem_cons] at hn
      rcases hn with rfl | hn
      · have hkind := TypeDecl.kind_mem_of_ofTree? hd
        rw [TypeDecl.name_of_ofTree? hd]
        have hmodule : "module_declaration" ∉ TypeKind.declarationKinds := by decide
        exact isPlainName_partText hplain fun h => hmodule (h ▸ hkind)
      · obtain ⟨m, hm, hn⟩ := List.mem_flatMap.mp hn
        rcases List.mem_append.mp hm with hm | hm
        · -- the components of a record are fields, which declare no such name
          obtain ⟨f, -, rfl⟩ := List.mem_map.mp hm
          cases hn
        · obtain ⟨x, hx, hm⟩ := List.mem_flatMap.mp hm
          have hxplain := (within_of_mem_declaredMembers hx).everywhere ht
          cases hxd : TypeDecl.ofTree? x with
          | some e =>
              rw [Member.ofNode_of_modelled hxd] at hm
              obtain rfl := List.mem_singleton.mp hm
              exact ih x hx hxd hxplain n hn
          | none =>
              rw [Member.ofNode_of_not_modelled hxd] at hm
              exact Member.plain_of_mem_listOfPart (everywhere_iff.mp hxplain).1 hm n hn

/-- **Names of sources.** No type, method or constructor that a source declares has a dot in its
    name. -/
theorem SourceModel.hasPlainNames (source : String) : HasPlainNames (ofSource source).types := by
  intro d hd
  obtain ⟨t, ht, htd⟩ := List.mem_filterMap.mp hd
  have hplain := (Tree.everywhere_iff.mp (syntaxTree_plainNames source)).2
  exact Tree.plain_of_mem_declaredNames t htd (hplain t (Tree.mem_of_mem_namedChildren ht))

end AccessorScan
