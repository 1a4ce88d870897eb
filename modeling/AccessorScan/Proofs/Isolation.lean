import AccessorScan.Proofs.Places
import AccessorScan.Proofs.Scanning
import Mathlib.Data.List.Forall2

/-!
# `Proofs.Isolation` — files are judged in isolation

Two file systems that differ in the bytes of one source file have the same directories, so all paths lead
to the same places. Discovery reads ignore files only, which no source file is, and a file is judged by
its own bytes. So two scans tell the same of all other files.

## Contents
- `FileNode.SameBut`, `FileSystem.SameBut`: the same but for the bytes of one file.
- `FileNode.SameBut.get?`: what is under some names in both.
- `IgnoreLevel.Unread`, `SameBut.walk_eq`, `SameBut.findSources_eq`: discovery.
- `ScanReport.AgreeBut`, `Scan.EndsAlike`, `files_isolated`.
-/

namespace AccessorScan

/-! ## Differing in one file -/

/-- The nodes are the same but for the bytes of the file under these names. -/
inductive FileNode.SameBut : List String → FileNode → FileNode → Prop where
  | bytes (b c : ByteArray) : SameBut [] (.file b) (.file c)
  | inside {names : List String} {m n : FileNode} (before after : List (String × FileNode))
      (name : String) (hfirst : ∀ e ∈ before, e.1 ≠ name) (h : SameBut names m n) :
      SameBut (name :: names) (.directory (before ++ (name, m) :: after))
        (.directory (before ++ (name, n) :: after))

/-- The file systems are the same but for the bytes of the file under these names. -/
structure FileSystem.SameBut (names : List String) (fs gs : FileSystem) : Prop where
  root : FileNode.SameBut names fs.root gs.root
  here : fs.here = gs.here

namespace FileNode

theorem child?_first {before after : List (String × FileNode)} {name : String} {n : FileNode}
    (hfirst : ∀ e ∈ before, e.1 ≠ name) :
    (directory (before ++ (name, n) :: after)).child? name = some n := by
  have hnone : before.find? (fun e => e.1 == name) = none :=
    List.find?_eq_none.mpr fun e he => by simpa using hfirst e he
  simp [child?, entries, List.find?_append, hnone]

theorem child?_other {before after : List (String × FileNode)} {name other : String}
    (hother : other ≠ name) (m n : FileNode) :
    (directory (before ++ (name, m) :: after)).child? other =
      (directory (before ++ (name, n) :: after)).child? other := by
  have hname : (name == other) = false := by simpa using hother.symm
  simp [child?, entries, List.find?_append, hname]

namespace SameBut

variable {names : List String} {m n : FileNode}

theorem isDirectory_eq (h : SameBut names m n) : m.isDirectory = n.isDirectory := by
  cases h <;> rfl

theorem isFile_eq (h : SameBut names m n) : m.isFile = n.isFile := by
  cases h <;> rfl

theorem sight_eq (h : SameBut names m n) (hnames : names ≠ []) : m.sight = n.sight := by
  cases h with
  | bytes b c => exact absurd rfl hnames
  | inside before after name hfirst h => rfl

/-- Under the same names there is the same in both, or what differs in the same file. -/
theorem get? (h : SameBut names m n) (others : List String) :
    m.get? others = n.get? others ∨
      ∃ rest c d, names = others ++ rest ∧ m.get? others = some c ∧ n.get? others = some d ∧
        SameBut rest c d := by
  -- Names that leave the way to the file lead into an entry that both have.
  induction h generalizing others with
  | bytes b c =>
      cases others with
      | nil => exact .inr ⟨[], .file b, .file c, rfl, rfl, rfl, .bytes b c⟩
      | cons other others => exact .inl rfl
  | @inside names m n before after name hfirst h ih =>
      cases others with
      | nil => exact .inr ⟨name :: names, _, _, rfl, rfl, rfl, .inside before after name hfirst h⟩
      | cons other others =>
          by_cases hother : other = name
          · subst hother
            simp only [FileNode.get?, child?_first hfirst, Option.bind_some, List.cons_append,
              List.cons.injEq, true_and]
            exact ih others
          · left
            simp only [FileNode.get?, child?_other hother m n]

theorem sight?_eq (h : SameBut names m n) {others : List String} (hothers : others ≠ names) :
    (m.get? others).map sight = (n.get? others).map sight := by
  obtain heq | ⟨rest, c, d, hnames, hc, hd, hrest⟩ := h.get? others
  · rw [heq]
  · have hne : rest ≠ [] := by
      rintro rfl
      exact hothers (by rw [hnames, List.append_nil])
    rw [hc, hd, Option.map_some, Option.map_some, hrest.sight_eq hne]

theorem opens?_eq (h : SameBut names m n) (others : List String) :
    (m.get? others).map isDirectory = (n.get? others).map isDirectory := by
  obtain heq | ⟨rest, c, d, -, hc, hd, hrest⟩ := h.get? others
  · rw [heq]
  · rw [hc, hd, Option.map_some, Option.map_some, hrest.isDirectory_eq]

end SameBut

end FileNode

/-! ## Ignore files -/

namespace IgnoreLevel

/-- No directory has its ignore file under these names. -/
def Unread (names : List String) : Prop :=
  ∀ list ∈ [plainNames, trackedNames, unsharedNames], ¬ list <:+ names

theorem Unread.of_suffix {names rest : List String} (h : Unread names) (hrest : rest <:+ names) :
    Unread rest :=
  fun list hlist hsuffix => h list hlist (hsuffix.trans hrest)

/-- No source file is an ignore file. -/
theorem unread_source (directory : List String) {name : String}
    (hname : ".java".toList <:+ name.toList) : Unread (directory ++ [name]) := by
  have hlists : ∀ list ∈ [plainNames, trackedNames, unsharedNames],
      ∃ last, list.getLast? = some last ∧ ¬ ".java".toList <:+ last.toList := by
    decide
  rintro list hlist ⟨above, habove⟩
  obtain ⟨last, hlast, hjava⟩ := hlists list hlist
  have hsame := congrArg List.getLast? habove
  rw [List.getLast?_append, hlast, List.getLast?_concat] at hsame
  cases hsame
  exact hjava hname

theorem fileUnder_eq (directory : FileNode) (names : List String) :
    fileUnder directory names =
      match (directory.get? names).map FileNode.sight with
      | some (.file bytes) => IgnoreFile.ofBytes bytes
      | _ => .empty := by
  unfold fileUnder
  rcases directory.get? names with _ | _ | _ | _ <;> rfl

/-- Directories have the same ignore files if they look the same under the names of these files. -/
theorem ofDirectory_congr {m n : FileNode}
    (h : ∀ list ∈ [plainNames, trackedNames, unsharedNames],
      (m.get? list).map FileNode.sight = (n.get? list).map FileNode.sight) (depth : Nat) :
    ofDirectory depth m = ofDirectory depth n := by
  have hlists : ∀ list ∈ [plainNames, trackedNames, unsharedNames],
      fileUnder m list = fileUnder n list := fun list hlist => by
    rw [fileUnder_eq, fileUnder_eq, h list hlist]
  unfold ofDirectory
  rw [hlists plainNames (by simp), hlists trackedNames (by simp), hlists unsharedNames (by simp)]

theorem ofDirectory_eq {names : List String} {m n : FileNode} (h : FileNode.SameBut names m n)
    (hunread : Unread names) (depth : Nat) : ofDirectory depth m = ofDirectory depth n := by
  refine ofDirectory_congr (fun list hlist => h.sight?_eq ?_) depth
  rintro rfl
  exact hunread _ hlist List.suffix_rfl

end IgnoreLevel

/-! ## Discovery -/

theorem walkEntries_append (levels : List IgnoreLevel) (path : FilePath) (names : List String)
    (before after : List (String × FileNode)) :
    walkEntries levels path names (before ++ after) =
      walkEntries levels path names before ++ walkEntries levels path names after := by
  induction before with
  | nil => rfl
  | cons e before ih =>
      simp only [List.cons_append, walkEntries, ih, List.append_assoc]

/-- The same files are reached, since ignore files and names decide about that. -/
theorem FileNode.SameBut.walk_eq {names : List String} {m n : FileNode} (h : SameBut names m n)
    (hunread : IgnoreLevel.Unread names) (levels : List IgnoreLevel) (path : FilePath)
    (here : List String) : walk levels path here m = walk levels path here n := by
  induction h generalizing levels path here with
  | bytes b c => rfl
  | @inside names m n before after name hfirst h ih =>
      -- The ignore files of this directory are the same, and so is what the walk does on its entries.
      have hlevel := IgnoreLevel.ofDirectory_eq (.inside before after name hfirst h) hunread here.length
      have hrest := ih (hunread.of_suffix (List.suffix_cons name names))
      simp only [walk, walkEntries_append, walkEntries, hlevel, h.isDirectory_eq, hrest]

namespace FileSystem.SameBut

variable {names : List String} {fs gs : FileSystem}

theorem locate_eq (h : SameBut names fs gs) (p : FilePath) : fs.locate p = gs.locate p :=
  locate_congr h.root.opens?_eq h.here p

/-- What is at a place is the same in both, or differs in the same file. -/
theorem node? (h : SameBut names fs gs) (place : Place) :
    fs.node? place = gs.node? place ∨
      ∃ rest m n, rest <:+ names ∧ fs.node? place = some m ∧ gs.node? place = some n ∧
        FileNode.SameBut rest m n := by
  cases place with
  | removed parent => exact .inl rfl
  | «at» others =>
      obtain heq | ⟨rest, m, n, hnames, hm, hn, hrest⟩ := h.root.get? others
      · exact .inl heq
      · exact .inr ⟨rest, m, n, ⟨others, hnames.symm⟩, hm, hn, hrest⟩

theorem isFile_eq (h : SameBut names fs gs) (p : FilePath) : fs.isFile p = gs.isFile p := by
  unfold isFile lookup
  rw [← h.locate_eq p]
  cases fs.locate p with
  | error e => rfl
  | ok place =>
      obtain heq | ⟨rest, m, n, -, hm, hn, hrest⟩ := h.node? place
      · simp only [bind, Except.bind, heq]
      · simp only [bind, Except.bind, hm, hn]
        exact hrest.isFile_eq

theorem readBytes_eq (h : SameBut names fs gs) {p : FilePath} (hp : fs.locate p ≠ .ok (.at names)) :
    fs.readBytes p = gs.readBytes p := by
  refine readBytes_congr (h.locate_eq p) fun others hothers => h.root.sight?_eq ?_
  rintro rfl
  exact hp hothers

theorem levelsAbove_eq (h : SameBut names fs gs) (hunread : IgnoreLevel.Unread names)
    (others : List String) : levelsAbove fs.root others = levelsAbove gs.root others := by
  unfold levelsAbove
  refine congrArg (fun level => List.filterMap level _) (funext fun depth => ?_)
  obtain heq | ⟨rest, m, n, hnames, hm, hn, hrest⟩ := h.root.get? (others.take depth)
  · rw [heq]
  · have hsuffix : rest <:+ names := ⟨others.take depth, hnames.symm⟩
    rw [hm, hn, Option.map_some, Option.map_some,
      IgnoreLevel.ofDirectory_eq hrest (hunread.of_suffix hsuffix)]

theorem discover_eq (h : SameBut names fs gs) (hunread : IgnoreLevel.Unread names)
    (root : FilePath) : discover fs root = discover gs root := by
  unfold discover
  rw [← h.isFile_eq root, ← h.locate_eq root]
  cases fs.locate root with
  | error e => rfl
  | ok place =>
      cases place with
      | removed parent => rfl
      | «at» others =>
          have hlevels := h.levelsAbove_eq hunread
          obtain heq | ⟨rest, m, n, hsuffix, hm, hn, hrest⟩ := h.node? (.at others)
          · simp only [heq, hlevels]
          · simp only [hm, hn, hlevels]
            cases hrest with
            | bytes b c => rfl
            | inside before after name hfirst hrest =>
                have hinside := FileNode.SameBut.inside before after name hfirst hrest
                simp only [hinside.walk_eq (hunread.of_suffix hsuffix)]

/-- **The same files are found**, and the same is told about it. -/
theorem findSources_eq (h : SameBut names fs gs) (hunread : IgnoreLevel.Unread names)
    (root : FilePath) (excludes : List String) :
    Scan.findSources fs root excludes = Scan.findSources gs root excludes := by
  unfold Scan.findSources splitExcluded
  rw [h.discover_eq hunread, h.isFile_eq]

end FileSystem.SameBut

/-! ## Scans of both -/

/-- Two reports list the same paths in the same order, and tell the same of each that is not among
    these. -/
structure ScanReport.AgreeBut (changed : FilePath → Prop) (r s : ScanReport) : Prop where
  root : r.root = s.root
  paths : r.files.map FileReport.path = s.files.map FileReport.path
  files : List.Forall₂ (fun f g => changed ⟨f.path⟩ ∨ f = g) r.files s.files

/-- Two scans end with reports in this relation, or fail alike. -/
inductive Scan.EndsAlike (agree : ScanReport → ScanReport → Prop) :
    Except ScanError ScanReport → Except ScanError ScanReport → Prop where
  | failed (e : ScanError) : EndsAlike agree (.error e) (.error e)
  | reported {r s : ScanReport} (h : agree r s) : EndsAlike agree (.ok r) (.ok s)

namespace Scan

theorem scanFile_congr {fs gs : FileSystem} {p : FilePath} (h : fs.readBytes p = gs.readBytes p) :
    scanFile fs p = scanFile gs p := by
  unfold scanFile FileSystem.readText
  rw [h]

theorem reportOn_agreeBut {names : List String} {fs gs : FileSystem}
    (h : FileSystem.SameBut names fs gs) (root : FilePath) (ps : List FilePath) :
    (reportOn fs root ps).AgreeBut (fun p => fs.locate p = .ok (.at names)) (reportOn gs root ps) := by
  refine ⟨rfl, ?_, ?_⟩
  · simp only [reportOn, List.map_map, Function.comp_def, FileReport.path_ofReading]
  · simp only [reportOn, List.forall₂_map_left_iff, List.forall₂_map_right_iff, List.forall₂_same]
    intro p _
    by_cases hp : fs.locate p = .ok (.at names)
    · left
      rw [FileReport.path_ofReading]
      exact hp
    · right
      unfold FileSystem.readText
      rw [h.readBytes_eq hp]

theorem scanTree_endsAlike {names : List String} {fs gs : FileSystem}
    (h : FileSystem.SameBut names fs gs) (hunread : IgnoreLevel.Unread names) (root : FilePath)
    (settings : ScanSettings) :
    EndsAlike (ScanReport.AgreeBut fun p => fs.locate p = .ok (.at names))
      (scanTree fs root settings).value (scanTree gs root settings).value := by
  rw [scanTree_value, scanTree_value, h.findSources_eq hunread]
  cases (findSources gs root settings.excludes).value with
  | error e => exact .failed e
  | ok ps => exact .reported (reportOn_agreeBut h root ps)

/-- A file that is no text is reported with an error and without methods. -/
theorem failed_of_invalidText {fs : FileSystem} {p : FilePath} {bytes : ByteArray}
    (hread : fs.readBytes p = .ok bytes) (hbytes : String.fromUTF8? bytes = none) :
    (scanFile fs p).value.error.isSome = true ∧ (scanFile fs p).value.methods = [] := by
  have htext : fs.readText p = .error .invalidText := by
    simp only [FileSystem.readText, hread, bind, Except.bind, hbytes]
  rw [scanFile_value, htext]
  exact ⟨rfl, rfl⟩

/-- **Files are judged in isolation.** A report judges the files that are found one by one, each by its
    bytes and its path. So if two file systems differ in the bytes of one source file, the two scans fail
    alike or tell the same of all other files, and if these bytes are no text, the file has an error. -/
theorem files_isolated :
    (∀ fs root settings r, (scanTree fs root settings).value = .ok r →
      ∃ ps, (findSources fs root settings.excludes).value = .ok ps ∧
        r.files = ps.map fun p => (scanFile fs p).value) ∧
    (∀ fs gs p, fs.readBytes p = gs.readBytes p → scanFile fs p = scanFile gs p) ∧
    (∀ directory name fs gs, ".java".toList <:+ name.toList →
      FileSystem.SameBut (directory ++ [name]) fs gs → ∀ root settings,
      EndsAlike (ScanReport.AgreeBut fun p => fs.locate p = .ok (.at (directory ++ [name])))
        (scanTree fs root settings).value (scanTree gs root settings).value) ∧
    ∀ fs root settings r, (scanTree fs root settings).value = .ok r → ∀ f ∈ r.files,
      ∀ names bytes, fs.locate ⟨f.path⟩ = .ok (.at names) →
        fs.root.get? names = some (.file bytes) → String.fromUTF8? bytes = none →
        f.error.isSome = true ∧ f.methods = [] := by
  have hfiles : ∀ fs root settings r, (scanTree fs root settings).value = .ok r →
      ∃ ps, (findSources fs root settings.excludes).value = .ok ps ∧
        r.files = ps.map fun p => (scanFile fs p).value := by
    intro fs root settings r hr
    obtain ⟨ps, hps, rfl⟩ := scanTree_eq_ok_iff.mp hr
    exact ⟨ps, hps, List.map_congr_left fun p _ => (scanFile_value fs p).symm⟩
  refine ⟨hfiles, fun fs gs p => scanFile_congr, ?_, ?_⟩
  · intro directory name fs gs hname h root settings
    exact scanTree_endsAlike h (IgnoreLevel.unread_source directory hname) root settings
  · intro fs root settings r hr f hf names bytes hplace hnode hbytes
    obtain ⟨ps, -, hmap⟩ := hfiles fs root settings r hr
    rw [hmap] at hf
    obtain ⟨p, -, rfl⟩ := List.mem_map.mp hf
    have hpath : (scanFile fs p).value.path = p.text := by
      rw [scanFile_value, FileReport.path_ofReading]
    rw [hpath] at hplace
    have hread : fs.readBytes p = .ok bytes := by
      rw [FileSystem.readBytes_of_locate hplace, FileSystem.sight?, hnode]
      rfl
    exact failed_of_invalidText hread hbytes

/-- A directory with a source and a file of these bytes before it. -/
def withFirst (bytes : ByteArray) : FileSystem :=
  let source := "class B \x7b private int b; int getB() \x7b return b; \x7d \x7d"
  ⟨.directory [("A.java", .file bytes), ("B.java", .file source.toUTF8)], .at []⟩

/-- The report on such a directory. -/
def withFirstReport (error : Option String) (failed : Nat) : ScanReport :=
  ⟨"/", [⟨"/A.java", [], error⟩,
    ⟨"/B.java", [⟨"B", "getB", 1, false, some (.getter "b")⟩], none⟩], ⟨2, failed, 1, 1, 0⟩⟩

theorem files_isolated_spoiled :
    let spoiled := withFirst ⟨#[255]⟩
    let emptied := withFirst ByteArray.empty
    let unread := "File system error: Failed to read source file"
    (scanTree spoiled ⟨"/"⟩ ⟨[], 0⟩).value = .ok (withFirstReport (some unread) 1) ∧
    (scanTree emptied ⟨"/"⟩ ⟨[], 0⟩).value = .ok (withFirstReport none 0) ∧
    (∃ ps, (findSources spoiled ⟨"/"⟩ []).value = .ok ps ∧
      (withFirstReport (some unread) 1).files = ps.map fun p => (scanFile spoiled p).value) ∧
    scanFile spoiled ⟨"/B.java"⟩ = scanFile emptied ⟨"/B.java"⟩ ∧
    EndsAlike (ScanReport.AgreeBut fun p => spoiled.locate p = .ok (.at ["A.java"]))
      (scanTree spoiled ⟨"/"⟩ ⟨[], 0⟩).value (scanTree emptied ⟨"/"⟩ ⟨[], 0⟩).value ∧
    (some unread).isSome = true := by
  intro spoiled emptied unread
  have hfound : ∀ bytes, (findSources (withFirst bytes) ⟨"/"⟩ []).value =
      .ok [⟨"/A.java"⟩, ⟨"/B.java"⟩] := fun bytes =>
    findSources_of_walk (by decide) rfl rfl rfl (by rfl) (by decide +kernel)
  have hspoiled : (scanTree spoiled ⟨"/"⟩ ⟨[], 0⟩).value = .ok (withFirstReport (some unread) 1) :=
    scanTree_eq_ok_iff.mpr ⟨_, hfound _, by decide +kernel⟩
  have hemptied : (scanTree emptied ⟨"/"⟩ ⟨[], 0⟩).value = .ok (withFirstReport none 0) :=
    scanTree_eq_ok_iff.mpr ⟨_, hfound _, by decide +kernel⟩
  have hsame : FileSystem.SameBut ([] ++ ["A.java"]) spoiled emptied :=
    ⟨.inside [] _ "A.java" (fun _ h => nomatch h) (.bytes _ _), rfl⟩
  obtain ⟨hfiles, hbytes, htwo, hfailed⟩ := files_isolated
  refine ⟨hspoiled, hemptied, hfiles _ _ _ _ hspoiled, hbytes _ _ _ rfl,
    htwo [] "A.java" _ _ (by decide) hsame _ _, ?_⟩
  exact (hfailed _ _ _ _ hspoiled _ List.mem_cons_self ["A.java"] ⟨#[255]⟩
    (by decide +kernel) (by rfl) (by decide +kernel)).1

end Scan

end AccessorScan
