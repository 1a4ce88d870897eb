import AccessorScan.Proofs.Confinement

/-!
# `Proofs.Delivery` — where the report of a scan goes

A scan command takes a configuration, puts its flags in place of what it says, scans, and writes the
report. The scan is over before the file for the report is created, so it does not matter what that file
held or whether it is one of those that were read. It does matter that the file keeps all that it is given: a
device keeps nothing, and a disk that fills up only the beginning.

## Contents
- `Filed`: what writing a report under a path comes to; `ScanCommand.deliver_filed`.
- `ScanCommand.StartsFrom`, `ScanCommand.Effective`: the configuration that a scan follows.
- `ScanCommand.Ends`: what a scan command comes to; `ScanCommand.runOn_ends`.
- `ScanCommand.into`: the same command with another place for the report; `ScanCommand.runOn_into`.
- `ScanCommand.withJobs`: the same command with other workers; `Scan.scanTreeBy_workers`,
  `ScanCommand.runOn_withJobs`.
- `report_delivered`; `report_not_kept`: a device is an exception.
-/

namespace AccessorScan

/-! ## Filing -/

/-- What writing these bytes under a path comes to. A device takes what it has room for and keeps nothing. -/
inductive Filed (p : FilePath) (bs : List UInt8) (disk : Room) (fs : FileSystem) : CommandEnd → Prop where
  | uncreated (e : IoError) (hcreate : fs.write p ByteArray.empty = .error e) :
      Filed p bs disk fs (.failed ⟨["Failed to create " ++ p.text], .io e⟩ fs)
  | kept {gs : FileSystem} (hfits : ∀ n e, disk = .limited n e → bs.length ≤ n)
      (hread : gs.readBytes p = .ok ⟨bs.toArray⟩) (hwrites : fs.WritesAt p gs) :
      Filed p bs disk fs ⟨none, [], gs⟩
  /-- The disk is full before everything is written, and the file holds the beginning. -/
  | cut {gs : FileSystem} {n : Nat} {e : IoError} (hdisk : disk = .limited n e) (hlong : n < bs.length)
      (hread : gs.readBytes p = .ok ⟨(bs.take n).toArray⟩) (hwrites : fs.WritesAt p gs) :
      Filed p bs disk fs ⟨some ⟨[], .io e⟩, [], gs⟩
  | dropped {full : Bool} (hdevice : fs.lookup p = .ok (.device full)) (hroom : ¬ (full = true ∧ bs ≠ [])) :
      Filed p bs disk fs ⟨none, [], fs⟩
  | refused (hdevice : fs.lookup p = .ok (.device true)) (hbs : bs ≠ []) :
      Filed p bs disk fs ⟨some ⟨[], .io .noSpace⟩, [], fs⟩

namespace ScanCommand

variable {c : ScanCommand} {host : Host} {fs : FileSystem} {report : Writing Unit} {bs : List UInt8}

/-- **Delivery into a file.** -/
theorem deliver_filed {p : FilePath} (hp : c.output = some p) (hreport : report.Writes bs) (host : Host)
    (fs : FileSystem) : Filed p bs host.disk fs (c.deliver host fs report) := by
  obtain ⟨e, hcreate, hsame⟩ | ⟨full, hdevice, hsame⟩ | ⟨holding, hholding, hsame⟩ :=
    Writing.intoFile_cases hreport fs p
  · simp only [deliver, hp, hsame]
    exact .uncreated e hcreate
  · rw [deliver_of_intoFile hp (hsame host.disk)]
    split
    case isTrue hfull =>
      obtain ⟨rfl, hbs⟩ := hfull
      exact .refused hdevice hbs
    case isFalse hroom => exact .dropped hdevice hroom
  · rw [deliver_of_intoFile hp (hsame host.disk)]
    obtain ⟨htakes, hfits⟩ | ⟨n, e, hdisk, hlong, htakes⟩ := host.disk.takes_cases bs
    · rw [htakes]
      exact .kept hfits (hholding _).1 (hholding _).2
    · rw [htakes]
      exact .cut hdisk hlong (hholding _).1 (hholding _).2

/-- **Delivery to the output.** -/
theorem deliver_of_no_output (hp : c.output = none) (hreport : report.Writes bs) (host : Host)
    (fs : FileSystem) : c.deliver host fs report =
      ⟨CommandEnd.failureOf (host.output.takes bs).1, (host.output.takes bs).2, fs⟩ := by
  obtain ⟨hend, htaken⟩ := hreport.into_sink host.output
  simp only [deliver, hp, hend, htaken]

/-! ## Configuration -/

/-- The configuration that a scan starts from, or why there is none: that of the file it names, whatever
    that file comes to, and otherwise the one that a search ends with. -/
inductive StartsFrom (c : ScanCommand) (fs : FileSystem) : Except ScanError Config → Prop where
  | named (p : FilePath) (hconfig : c.config = some p) : StartsFrom c fs (Config.loadFrom fs p).value
  | sought (hconfig : c.config = none) : StartsFrom c fs (.ok (Config.searchHere fs).value)

/-- The configuration `eff` says what the command says, and where that says nothing what `base` says. -/
structure Effective (c : ScanCommand) (base eff : Config) : Prop where
  excludes : eff.scan.excludes = base.scan.excludes
  jobs : ∀ n, c.jobs = some n → eff.scan.jobs = n
  jobsLeft : c.jobs = none → eff.scan.jobs = base.scan.jobs
  format : ∀ f, c.format = some f → eff.output.format = f
  formatLeft : c.format = none → eff.output.format = base.output.format
  showAll : eff.output.showAll = true ↔ base.output.showAll = true ∨ c.all = true

theorem startsFrom_baseConfig (c : ScanCommand) (fs : FileSystem) :
    c.StartsFrom fs (c.baseConfig fs).value := by
  unfold baseConfig
  cases hconfig : c.config with
  | some p => exact .named p hconfig
  | none => exact .sought hconfig

theorem StartsFrom.eq_baseConfig {start : Except ScanError Config} (h : c.StartsFrom fs start) :
    start = (c.baseConfig fs).value := by
  cases h with
  | named p hconfig => simp only [baseConfig, hconfig]
  | sought hconfig =>
      simp only [baseConfig, hconfig]
      rfl

theorem effective_override (c : ScanCommand) (base : Config) : c.Effective base (c.override base) where
  excludes := rfl
  jobs n hn := by
    show c.jobs.getD base.scan.jobs = n
    rw [hn, Option.getD_some]
  jobsLeft hnone := by
    show c.jobs.getD base.scan.jobs = base.scan.jobs
    rw [hnone, Option.getD_none]
  format f hf := by
    show c.format.getD base.output.format = f
    rw [hf, Option.getD_some]
  formatLeft hnone := by
    show c.format.getD base.output.format = base.output.format
    rw [hnone, Option.getD_none]
  showAll := Bool.or_eq_true_iff

theorem Effective.scan_eq {base eff : Config} (h : c.Effective base eff) :
    eff.scan = (c.override base).scan := by
  have hover := c.effective_override base
  have hjobs : eff.scan.jobs = (c.override base).scan.jobs := by
    cases hc : c.jobs with
    | some n => rw [h.jobs n hc, hover.jobs n hc]
    | none => rw [h.jobsLeft hc, hover.jobsLeft hc]
  calc eff.scan = ⟨eff.scan.excludes, eff.scan.jobs⟩ := rfl
    _ = ⟨(c.override base).scan.excludes, (c.override base).scan.jobs⟩ := by
      rw [h.excludes, hjobs, hover.excludes]

/-! ## One run -/

/-- The bytes of a report as a configuration wants it. -/
def rendered (eff : Config) (color : Bool) (r : ScanReport) : List UInt8 :=
  utf8 (r.text ⟨eff.output.format, eff.output.showAll, color⟩)

/-- What a scan command comes to. -/
inductive Ends (c : ScanCommand) (host : Host) (fs : FileSystem) (color : Bool) : CommandEnd → Prop where
  | misconfigured {e : ScanError} (hbase : c.StartsFrom fs (.error e)) :
      Ends c host fs color (.failed (.ofScan e) fs)
  | unscanned {base eff : Config} {e : ScanError} (hbase : c.StartsFrom fs (.ok base))
      (heff : c.Effective base eff)
      (hscan : (Scan.scanTreeBy host.workers fs c.path eff.scan).value = .error e) :
      Ends c host fs color (.failed ((Failure.ofScan e).within ("Failed to scan " ++ c.path.text)) fs)
  | printed {base eff : Config} {r : ScanReport} (hbase : c.StartsFrom fs (.ok base))
      (heff : c.Effective base eff)
      (hscan : (Scan.scanTreeBy host.workers fs c.path eff.scan).value = .ok r) (houtput : c.output = none) :
      Ends c host fs color ⟨CommandEnd.failureOf (host.output.takes (rendered eff color r)).1,
        (host.output.takes (rendered eff color r)).2, fs⟩
  | filed {base eff : Config} {r : ScanReport} {p : FilePath} {e : CommandEnd}
      (hbase : c.StartsFrom fs (.ok base)) (heff : c.Effective base eff)
      (hscan : (Scan.scanTreeBy host.workers fs c.path eff.scan).value = .ok r) (houtput : c.output = some p)
      (hfiled : Filed p (rendered eff color r) host.disk fs e) : Ends c host fs color e

/-- **One run.** -/
theorem runOn_ends (c : ScanCommand) (host : Host) (fs : FileSystem) (color : Bool) :
    c.Ends host fs color (c.runOn host fs color).value := by
  have hstarts := c.startsFrom_baseConfig fs
  cases hbase : (c.baseConfig fs).value with
  | error e =>
      rw [runOn, Logged.value_bind, hbase]
      exact .misconfigured (hbase ▸ hstarts)
  | ok base =>
      rw [hbase] at hstarts
      have heff := c.effective_override base
      cases hscan : (Scan.scanTreeBy host.workers fs c.path (c.override base).scan).value with
      | error e =>
          simp only [runOn, Logged.value_bind, hbase, hscan]
          exact .unscanned hstarts heff hscan
      | ok r =>
          rw [runOn_of_scan hbase hscan]
          have hreport := Writing.writes_print r
            ⟨(c.override base).output.format, (c.override base).output.showAll, color⟩
          cases houtput : c.output with
          | none =>
              rw [deliver_of_no_output houtput hreport]
              exact .printed hstarts heff hscan houtput
          | some p => exact .filed hstarts heff hscan houtput (deliver_filed houtput hreport host fs)

/-! ## Two runs -/

/-- The same command with another place for the report. -/
def into (c : ScanCommand) (output : Option FilePath) : ScanCommand := { c with output := output }

/-- The same command with another number of jobs. -/
def withJobs (c : ScanCommand) (jobs : Option Nat) : ScanCommand := { c with jobs := jobs }

/-- A scan has no report, whatever its place would be, or it has the same report for every place. -/
theorem runOn_into_cases (c : ScanCommand) (host : Host) (fs : FileSystem) (color : Bool) :
    (∃ failure, ∀ output room, ((c.into output).runOn { host with output := room } fs color).value =
      .failed failure fs) ∨
    ∃ r style, ∀ output room, ((c.into output).runOn { host with output := room } fs color).value =
      (c.into output).deliver { host with output := room } fs (ScanReport.print r style) := by
  -- Neither the configuration nor the scan looks at the place, so what they come to can be taken over to
  -- every other one.
  cases hstart : (c.baseConfig fs).value with
  | error e =>
      refine .inl ⟨.ofScan e, fun output room => ?_⟩
      have hstarts : ((c.into output).baseConfig fs).value = .error e := hstart
      simp only [runOn, Logged.value_bind, hstarts, Logged.value_pure]
  | ok base =>
      have hstarts : ∀ output, ((c.into output).baseConfig fs).value = .ok base := fun _ => hstart
      cases hscan : (Scan.scanTreeBy host.workers fs c.path (c.override base).scan).value with
      | error e =>
          refine .inl ⟨(Failure.ofScan e).within ("Failed to scan " ++ c.path.text), fun output room => ?_⟩
          have hscans : (Scan.scanTreeBy host.workers fs (c.into output).path
              ((c.into output).override base).scan).value = .error e := hscan
          simp only [runOn, Logged.value_bind, hstarts, hscans, Logged.value_pure]
          rfl
      | ok r =>
          refine .inr ⟨r, ⟨(c.override base).output.format, (c.override base).output.showAll, color⟩,
            fun output room => ?_⟩
          have hscans : (Scan.scanTreeBy { host with output := room }.workers fs (c.into output).path
              ((c.into output).override base).scan).value = .ok r := hscan
          exact runOn_of_scan (hstarts output) hscans color

/-- **Where the report goes** counts only when it is there. -/
theorem runOn_into (c : ScanCommand) (host : Host) (fs : FileSystem) (color : Bool) (p : FilePath) :
    match ((c.into none).runOn { host with output := .ample } fs color).value with
    | ⟨some failure, printed, files⟩ =>
        ((c.into (some p)).runOn host fs color).value = ⟨some failure, printed, files⟩
    | ⟨none, printed, files⟩ =>
        files = fs ∧ Filed p printed host.disk fs ((c.into (some p)).runOn host fs color).value := by
  obtain ⟨failure, hfails⟩ | ⟨r, style, hdelivers⟩ := c.runOn_into_cases host fs color
  · rw [hfails none .ample]
    exact hfails (some p) host.output
  · have hreport := Writing.writes_print r style
    rw [hdelivers none .ample, deliver_of_no_output rfl hreport]
    refine ⟨rfl, ?_⟩
    rw [hdelivers (some p) host.output]
    exact deliver_filed rfl hreport host fs

end ScanCommand

namespace Scan

/-- **Workers leave no trace.** Any number of any workers, if they can be had, come to the same report. -/
theorem scanTreeBy_workers {w others : Workers} {jobs otherJobs : Nat} (hw : w.refusal? jobs = none)
    (hothers : others.refusal? otherJobs = none) (fs : FileSystem) (root : FilePath) (excludes : List String) :
    (scanTreeBy w fs root ⟨excludes, jobs⟩).value = (scanTreeBy others fs root ⟨excludes, otherJobs⟩).value := by
  rw [scanTreeBy_value, scanTreeBy_value, hw, hothers]

end Scan

namespace ScanCommand

theorem runOn_withJobs {c : ScanCommand} {host : Host} {fs : FileSystem} {base eff other : Config}
    {workers : Scan.Workers} {jobs : Option Nat} (hbase : c.StartsFrom fs (.ok base))
    (heff : c.Effective base eff) (hother : (c.withJobs jobs).Effective base other)
    (hhost : host.workers.refusal? eff.scan.jobs = none) (hworkers : workers.refusal? other.scan.jobs = none)
    (color : Bool) :
    ((c.withJobs jobs).runOn { host with workers := workers } fs color).value =
      (c.runOn host fs color).value := by
  have hstart : (c.baseConfig fs).value = .ok base := hbase.eq_baseConfig.symm
  have hstarts : ((c.withJobs jobs).baseConfig fs).value = .ok base := hstart
  rw [heff.scan_eq] at hhost
  rw [hother.scan_eq] at hworkers
  have hscan := Scan.scanTreeBy_workers hworkers hhost fs c.path base.scan.excludes
  have hsame : (Scan.scanTreeBy workers fs (c.withJobs jobs).path ((c.withJobs jobs).override base).scan).value =
      (Scan.scanTreeBy host.workers fs c.path (c.override base).scan).value := hscan
  simp only [runOn, Logged.value_bind, hstart, hstarts, hsame]
  cases (Scan.scanTreeBy host.workers fs c.path (c.override base).scan).value <;> rfl

end ScanCommand

/-- **The same report wherever it goes.** A scan command follows its configuration with the flags put in
    place of what it says. What it would print is what it leaves as the whole content of a file that it
    can create, whatever was there and whatever it was for. Only a device does not keep it, and where the disk
    fills up the beginning is kept and the command fails. If it fails before there is a report, it fails alike
    with and without a file to write. The number of jobs makes no difference, nor does who does them, as long as
    they can be had. -/
theorem report_delivered :
    (∀ (c : ScanCommand) host fs color, c.Ends host fs color (c.runOn host fs color).value) ∧
    (∀ (c : ScanCommand) (host : Host) fs color p,
      match ((c.into none).runOn { host with output := .ample } fs color).value with
      | ⟨some failure, printed, files⟩ =>
          ((c.into (some p)).runOn host fs color).value = ⟨some failure, printed, files⟩
      | ⟨none, printed, files⟩ =>
          files = fs ∧ Filed p printed host.disk fs ((c.into (some p)).runOn host fs color).value) ∧
    (∀ (w others : Scan.Workers) jobs otherJobs, w.refusal? jobs = none → others.refusal? otherJobs = none →
      ∀ fs root excludes, (Scan.scanTreeBy w fs root ⟨excludes, jobs⟩).value =
        (Scan.scanTreeBy others fs root ⟨excludes, otherJobs⟩).value) ∧
    ∀ (c : ScanCommand) (host : Host) fs base eff other workers jobs, c.StartsFrom fs (.ok base) →
      c.Effective base eff → (c.withJobs jobs).Effective base other →
      host.workers.refusal? eff.scan.jobs = none → workers.refusal? other.scan.jobs = none →
      ∀ color, ((c.withJobs jobs).runOn { host with workers := workers } fs color).value =
        (c.runOn host fs color).value :=
  ⟨ScanCommand.runOn_ends, ScanCommand.runOn_into, fun _ _ _ _ => Scan.scanTreeBy_workers,
    fun _ _ _ _ _ _ _ _ => ScanCommand.runOn_withJobs⟩

/-- A source beside a configuration file, and a device that is full. A scan of them is left to the kernel to
    run. -/
@[irreducible] def crowdedFiles : FileSystem :=
  ⟨.directory [
    ("T.java", .file "class T \x7b\x7d".toUTF8),
    (Config.fileName, .file "[scan]\njobs = 2\n".toUTF8),
    ("dev", .directory [("full", .device true)])], .at []⟩

/-- A scan of the current directory. -/
def scanHere : ScanCommand := ⟨⟨"."⟩, none, none, none, some 4, false⟩

/-- Workers who take the files from the last one to the first. -/
def backwards : Scan.Workers :=
  ⟨fun _ => none, fun _ n => (List.range n).reverse, fun _ n => List.reverse_perm (List.range n)⟩

/-- What the scan starts from. -/
def twoJobs : Config := ⟨⟨[], 2⟩, ⟨.terminal, false⟩⟩

theorem baseConfig_scanHere (output : Option FilePath) :
    ((scanHere.into output).baseConfig crowdedFiles).value = .ok twoJobs := by
  have hsought : (scanHere.baseConfig crowdedFiles).value = .ok twoJobs := by decide +kernel
  exact hsought

theorem exists_report_scanHere :
    ∃ r, (Scan.scanTreeBy .inTurn crowdedFiles ⟨"."⟩ ⟨[], 4⟩).value = .ok r ∧
      utf8 (r.text ⟨.terminal, false, false⟩) ≠ [] := by
  have hscan : (match (Scan.scanTreeBy .inTurn crowdedFiles ⟨"."⟩ ⟨[], 4⟩).value with
      | .ok r => utf8 (r.text ⟨.terminal, false, false⟩) != []
      | .error _ => false) = true := by decide +kernel
  split at hscan
  case h_1 r hreport => exact ⟨r, hreport, bne_iff_ne.mp hscan⟩
  case h_2 => cases hscan

theorem runOn_scanHere {r : ScanReport}
    (hscan : (Scan.scanTreeBy .inTurn crowdedFiles ⟨"."⟩ ⟨[], 4⟩).value = .ok r) (output : Option FilePath) :
    ((scanHere.into output).runOn .able crowdedFiles false).value =
      (scanHere.into output).deliver .able crowdedFiles (r.print ⟨.terminal, false, false⟩) := by
  have hscans : (Scan.scanTreeBy Host.able.workers crowdedFiles (scanHere.into output).path
      ((scanHere.into output).override twoJobs).scan).value = .ok r := hscan
  exact ScanCommand.runOn_of_scan (baseConfig_scanHere output) hscans false

theorem printed_scanHere {r : ScanReport}
    (hscan : (Scan.scanTreeBy .inTurn crowdedFiles ⟨"."⟩ ⟨[], 4⟩).value = .ok r) :
    ((scanHere.into none).runOn .able crowdedFiles false).value =
      ⟨none, utf8 (r.text ⟨.terminal, false, false⟩), crowdedFiles⟩ := by
  rw [runOn_scanHere hscan]
  exact ScanCommand.deliver_of_no_output rfl (Writing.writes_print r _) _ _

/-- The report replaces the configuration that it was made with. One worker who goes backwards writes what four
    write. -/
theorem report_delivered_over_configuration :
    ∃ bs gs, ((scanHere.into none).runOn .able crowdedFiles false).value = ⟨none, bs, crowdedFiles⟩ ∧
      ((scanHere.into (some ⟨Config.fileName⟩)).runOn .able crowdedFiles false).value = ⟨none, [], gs⟩ ∧
      gs.readBytes ⟨Config.fileName⟩ = .ok ⟨bs.toArray⟩ ∧
      (Scan.scanTreeBy backwards crowdedFiles ⟨"."⟩ ⟨[], 1⟩).value =
        (Scan.scanTreeBy .inTurn crowdedFiles ⟨"."⟩ ⟨[], 4⟩).value ∧
      (((scanHere.into none).withJobs (some 1)).runOn ⟨.ample, .ample, backwards⟩ crowdedFiles false).value =
        ⟨none, bs, crowdedFiles⟩ := by
  obtain ⟨-, hinto, hworkers, hjobs⟩ := report_delivered
  obtain ⟨r, hscan, -⟩ := exists_report_scanHere
  have hprinted := printed_scanHere hscan
  generalize utf8 (r.text ⟨.terminal, false, false⟩) = bs at hprinted
  have hample : ((scanHere.into none).runOn { Host.able with output := .ample } crowdedFiles false).value =
      ⟨none, bs, crowdedFiles⟩ := hprinted
  have hsame := hinto scanHere .able crowdedFiles false ⟨Config.fileName⟩
  rw [hample] at hsame
  obtain ⟨-, hfiled⟩ := hsame
  have hone := hjobs (scanHere.into none) .able crowdedFiles twoJobs ⟨⟨[], 4⟩, ⟨.terminal, false⟩⟩
    ⟨⟨[], 1⟩, ⟨.terminal, false⟩⟩ backwards (some 1)
    (baseConfig_scanHere none ▸ ScanCommand.startsFrom_baseConfig _ _)
    (ScanCommand.effective_override (scanHere.into none) twoJobs)
    (ScanCommand.effective_override ((scanHere.into none).withJobs (some 1)) twoJobs) rfl rfl false
  have hbackwards := hworkers backwards .inTurn 1 4 rfl rfl crowdedFiles ⟨"."⟩ []
  have hcreate : (crowdedFiles.write ⟨Config.fileName⟩ ByteArray.empty).isOk = true := by decide +kernel
  have hfile : crowdedFiles.isFile ⟨Config.fileName⟩ = true := by decide +kernel
  generalize ((scanHere.into (some ⟨Config.fileName⟩)).runOn .able crowdedFiles false).value = e at hfiled
  cases hfiled with
  | uncreated e herror => rw [herror] at hcreate; cases hcreate
  | kept hfits hread hwrites => exact ⟨bs, _, hprinted, rfl, hread, hbackwards, hone.trans hprinted⟩
  | cut hdisk hlong hread hwrites => cases hdisk
  | dropped hdevice hroom => rw [FileSystem.isFile, hdevice] at hfile; cases hfile
  | refused hdevice hbs => rw [FileSystem.isFile, hdevice] at hfile; cases hfile

/-- **A device does not keep the report.** It can be created, and yet the command fails. -/
theorem report_not_kept :
    ¬ ∀ (c : ScanCommand) fs color p bs,
      ((c.into none).runOn .able fs color).value = ⟨none, bs, fs⟩ →
      (∃ e, ((c.into (some p)).runOn .able fs color).value =
        .failed ⟨["Failed to create " ++ p.text], .io e⟩ fs) ∨
      ∃ gs, ((c.into (some p)).runOn .able fs color).value = ⟨none, [], gs⟩ ∧
        gs.readBytes p = .ok ⟨bs.toArray⟩ := by
  intro hkept
  obtain ⟨r, hscan, hbs⟩ := exists_report_scanHere
  have htarget : crowdedFiles.target ⟨"/dev/full"⟩ = .ok ["dev", "full"] := by decide +kernel
  have hnode : crowdedFiles.root.get? ["dev", "full"] = some (.device true) := by
    unfold crowdedFiles
    rfl
  have hfiled := Writing.intoFile_of_device (Writing.writes_print r ⟨.terminal, false, false⟩) htarget hnode
    Host.able.disk
  rw [if_pos ⟨rfl, hbs⟩] at hfiled
  have hfull : ((scanHere.into (some ⟨"/dev/full"⟩)).runOn .able crowdedFiles false).value =
      ⟨some ⟨[], .io .noSpace⟩, [], crowdedFiles⟩ := by
    rw [runOn_scanHere hscan]
    exact ScanCommand.deliver_of_intoFile rfl hfiled
  have hends := hkept scanHere crowdedFiles false ⟨"/dev/full"⟩ _ (printed_scanHere hscan)
  rw [hfull] at hends
  -- it was created, so the failure has no context, and yet there is a failure
  obtain ⟨e, hcreate⟩ | ⟨gs, hnone, -⟩ := hends
  · cases hcreate
  · cases hnone

end AccessorScan
