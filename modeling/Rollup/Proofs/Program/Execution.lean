/-
# How an execution ends

An execution passes about ten checks before anything is merged: of the arguments
(`Arguments.IsRefused`), of the configuration file, of the settings that these make together, and
of the directories.  `IsHindered` gathers what can be wrong, and then nothing is touched.
Otherwise the run takes place, and all that is left is to write the report (`Ends`).  Settings are
looked for with two policies, which `IsConfigured` tells apart: a file that was asked for has to be
usable, and in place of the one in the working directory the defaults will do.

Which of the checks comes first does not show in the outcome (`execute_cases`).
-/

import Rollup.Program
import Rollup.Proofs.FileSystem.Writing
import Rollup.Proofs.Run.Calls
import Rollup.Proofs.Run.Results
import Rollup.Proofs.Storage.Directory

namespace Rollup

/-! ### Configuration files -/

namespace Config

variable {fs : FileSystem} {path : Path} {c c' : Config}

/-- The file holds a text in which these settings are read. -/
def IsWrittenAt (c : Config) (fs : FileSystem) (path : Path) : Prop :=
  ∃ text, fs.read path = .ok (Utf8.encode text) ∧ parse? text = some c

theorem load_eq_ok_iff : load fs path = .ok c ↔ c.IsWrittenAt fs path := by
  unfold load
  constructor
  · intro h
    split at h
    · cases h
    rename_i content hread
    split at h
    · cases h
    rename_i text hdecode
    split at h
    · rename_i hparse
      obtain rfl := Except.ok.inj h
      exact ⟨text, by rw [hread, Utf8.encode_of_decode? hdecode], hparse⟩
    · cases h
  · rintro ⟨text, hread, hparse⟩
    simp only [hread, Utf8.decode?_encode, hparse]

theorem IsWrittenAt.unique (h : c.IsWrittenAt fs path) (h' : c'.IsWrittenAt fs path) : c = c' :=
  Except.ok.inj ((load_eq_ok_iff.2 h).symm.trans (load_eq_ok_iff.2 h'))

theorem IsWrittenAt.exists (h : c.IsWrittenAt fs path) : fs.exists? path = true := by
  obtain ⟨text, hread, -⟩ := h
  unfold FileSystem.exists?
  cases hfind : fs.find path with
  | ok found => rfl
  | error fault =>
    simp only [FileSystem.read, hfind, bind, Except.bind] at hread
    cases hread

theorem validate_eq_ok_iff : c.validate = .ok () ↔ Path.alike c.published c.aggregate = false := by
  unfold validate
  cases Path.alike c.published c.aggregate <;> simp

end Config

/-! ### Arguments -/

namespace Arguments

variable {fs : FileSystem} {a : Arguments}

/-- The arguments contradict each other, or the report is to replace a directory. -/
inductive IsRefused (fs : FileSystem) (a : Arguments) : Prop
  | verboseAndQuiet (verbose : a.verbose = true) (quiet : a.quiet = true)
  | sameDirectory {p q : Path} (published : a.published? = some p) (aggregate : a.aggregate? = some q)
      (alike : Path.alike p q = true)
  | outputIsDirectory {path : Path} (output : a.output? = some path)
      (directory : fs.isDirectory path = true)

theorem sameGiven_eq_true_iff {p? q? : Option Path} : sameGiven p? q? = true ↔
    ∃ p q, p? = some p ∧ q? = some q ∧ Path.alike p q = true := by
  cases p? <;> cases q? <;> simp [sameGiven]

theorem isRefused_iff : a.IsRefused fs ↔ (a.verbose && a.quiet) = true ∨
    sameGiven a.published? a.aggregate? = true ∨
    ∃ path, a.output? = some path ∧ fs.isDirectory path = true := by
  rw [Bool.and_eq_true, sameGiven_eq_true_iff]
  constructor
  · rintro (⟨hverbose, hquiet⟩ | ⟨hpublished, haggregate, halike⟩ | ⟨houtput, hdir⟩)
    · exact Or.inl ⟨hverbose, hquiet⟩
    · exact Or.inr (Or.inl ⟨_, _, hpublished, haggregate, halike⟩)
    · exact Or.inr (Or.inr ⟨_, houtput, hdir⟩)
  · rintro (⟨hverbose, hquiet⟩ | ⟨p, q, hpublished, haggregate, halike⟩ | ⟨path, houtput, hdir⟩)
    · exact .verboseAndQuiet hverbose hquiet
    · exact .sameDirectory hpublished haggregate halike
    · exact .outputIsDirectory houtput hdir

/-- **Arguments are valid unless there is a reason to refuse them.** -/
theorem validate_eq_ok_iff (hinit : a.initConfig = false) :
    a.validate fs = .ok () ↔ ¬a.IsRefused fs := by
  rw [isRefused_iff, validate, hinit]
  cases a.verbose && a.quiet with
  | true => simp
  | false =>
    cases sameGiven a.published? a.aggregate? with
    | true => simp
    | false =>
      cases a.output? with
      | none => simp
      | some path => cases hdir : fs.isDirectory path <;> simp [hdir]

end Arguments

namespace Program

open FileSystem (IsWritable Changed)

variable {fs : FileSystem} {a : Arguments} {c : Config}

/-! ### Settings -/

/-- The configuration file in the working directory. -/
def defaultPath : Path := Path.join Path.dot (Path.ofString Config.fileName)

/-- The settings of the configuration file, before the command line is taken into account. -/
inductive IsConfigured (fs : FileSystem) (a : Arguments) : Config → Prop
  /-- Those of the file that was asked for. -/
  | asked {path : Path} {c : Config} (asked : a.config? = some path)
      (written : c.IsWrittenAt fs path) : IsConfigured fs a c
  /-- Those of the file in the working directory. -/
  | found {c : Config} (unasked : a.config? = none) (written : c.IsWrittenAt fs defaultPath) :
      IsConfigured fs a c
  /-- The defaults, if that file is missing or of no use. -/
  | fallback (unasked : a.config? = none) (unusable : ∀ c : Config, ¬c.IsWrittenAt fs defaultPath) :
      IsConfigured fs a .default

theorem loadConfig_of_asked {path : Path} (h : a.config? = some path) :
    loadConfig fs a = (Config.load fs path).map fun config => (config, .file path) := by
  rw [loadConfig, h]

/-- Without a file that was asked for there are always settings. -/
theorem loadConfig_of_unasked (fs : FileSystem) (h : a.config? = none) :
    ∃ c source, loadConfig fs a = .ok (c, source) ∧ (c.IsWrittenAt fs defaultPath ∨
      c = .default ∧ ∀ c' : Config, ¬c'.IsWrittenAt fs defaultPath) := by
  rw [loadConfig, h]
  cases hexists : fs.exists? defaultPath with
  | false =>
    have hload : Config.loadFrom fs Path.dot = .ok none := if_neg (Bool.eq_false_iff.1 hexists)
    simp only [hload]
    refine ⟨_, _, rfl, Or.inr ⟨rfl, fun c' hwritten => ?_⟩⟩
    rw [hwritten.exists] at hexists
    cases hexists
  | true =>
    have hload : Config.loadFrom fs Path.dot = (Config.load fs defaultPath).map some := if_pos hexists
    simp only [hload]
    cases hfile : Config.load fs defaultPath with
    | ok c => exact ⟨_, _, rfl, Or.inl (Config.load_eq_ok_iff.1 hfile)⟩
    | error e =>
      refine ⟨_, _, rfl, Or.inr ⟨rfl, fun c' hwritten => ?_⟩⟩
      rw [Config.load_eq_ok_iff.2 hwritten] at hfile
      cases hfile

/-- **The settings are found where they are to be looked for.** -/
theorem isConfigured_iff : IsConfigured fs a c ↔ ∃ source, loadConfig fs a = .ok (c, source) := by
  constructor
  · intro h
    cases h with
    | asked hasked hwritten =>
      rw [loadConfig_of_asked hasked, Config.load_eq_ok_iff.2 hwritten]
      exact ⟨_, rfl⟩
    | found hunasked hwritten =>
      obtain ⟨c', source, hload, hfound | ⟨-, hnone⟩⟩ := loadConfig_of_unasked fs hunasked
      · exact ⟨source, hfound.unique hwritten ▸ hload⟩
      · exact absurd hwritten (hnone c)
    | fallback hunasked hnone =>
      obtain ⟨c', source, hload, hfound | ⟨rfl, -⟩⟩ := loadConfig_of_unasked fs hunasked
      · exact absurd hfound (hnone c')
      · exact ⟨source, hload⟩
  · rintro ⟨source, hload⟩
    cases hasked : a.config? with
    | some path =>
      rw [loadConfig_of_asked hasked] at hload
      cases hfile : Config.load fs path with
      | error e =>
        rw [hfile] at hload
        cases hload
      | ok c' =>
        rw [hfile] at hload
        obtain ⟨rfl, -⟩ := Prod.mk.inj (Except.ok.inj hload)
        exact .asked hasked (Config.load_eq_ok_iff.1 hfile)
    | none =>
      obtain ⟨c', source', hload', hcases⟩ := loadConfig_of_unasked fs hasked
      obtain ⟨rfl, -⟩ := Prod.mk.inj (Except.ok.inj (hload'.symm.trans hload))
      rcases hcases with hfound | ⟨rfl, hnone⟩
      · exact .found hasked hfound
      · exact .fallback hasked hnone

/-- The settings are found in one place only. -/
theorem IsConfigured.unique {c' : Config} (h : IsConfigured fs a c) (h' : IsConfigured fs a c') :
    c = c' := by
  obtain ⟨source, hload⟩ := isConfigured_iff.1 h
  obtain ⟨source', hload'⟩ := isConfigured_iff.1 h'
  exact (Prod.mk.inj (Except.ok.inj (hload.symm.trans hload'))).1

/-- There are no settings only if the file that was asked for is of no use. -/
theorem loadConfig_eq_error_iff : (∃ e, loadConfig fs a = .error e) ↔
    ∃ path, a.config? = some path ∧ ∀ c : Config, ¬c.IsWrittenAt fs path := by
  cases hasked : a.config? with
  | some path =>
    rw [loadConfig_of_asked hasked]
    simp only [Option.some.injEq, exists_eq_left', ← Config.load_eq_ok_iff]
    cases Config.load fs path <;> simp [Except.map]
  | none =>
    obtain ⟨c', source, hload, -⟩ := loadConfig_of_unasked fs hasked
    simp [hload]

/-! ### Hindrances -/

/-- What keeps a run from taking place. -/
inductive IsHindered (fs : FileSystem) (a : Arguments) : Prop
  /-- The arguments are refused. -/
  | arguments (refused : a.IsRefused fs)
  /-- The configuration file that was asked for is of no use. -/
  | config {path : Path} (asked : a.config? = some path)
      (unusable : ∀ c : Config, ¬c.IsWrittenAt fs path)
  /-- The settings name one directory for both purposes. -/
  | sameDirectory {c : Config} (configured : IsConfigured fs a c)
      (alike : Path.alike (c.withArguments a).published (c.withArguments a).aggregate = true)
  /-- One of the directories does not exist. -/
  | missing {c : Config} (configured : IsConfigured fs a c)
      (missing : fs.isDirectory (c.withArguments a).published = false ∨
        fs.isDirectory (c.withArguments a).aggregate = false)

/-- Nothing hinders a run with valid arguments whose settings name two directories. -/
theorem not_isHindered (hvalid : ¬a.IsRefused fs) (hconfigured : IsConfigured fs a c)
    (halike : Path.alike (c.withArguments a).published (c.withArguments a).aggregate = false)
    (hpublished : fs.isDirectory (c.withArguments a).published = true)
    (haggregate : fs.isDirectory (c.withArguments a).aggregate = true) : ¬IsHindered fs a := by
  intro h
  cases h with
  | arguments refused => exact hvalid refused
  | config asked unusable =>
    obtain ⟨source, hload⟩ := isConfigured_iff.1 hconfigured
    obtain ⟨e, hload'⟩ := loadConfig_eq_error_iff.2 ⟨_, asked, unusable⟩
    cases hload.symm.trans hload'
  | sameDirectory configured same =>
    rw [configured.unique hconfigured, halike] at same
    cases same
  | missing configured missing =>
    rw [configured.unique hconfigured, hpublished, haggregate] at missing
    rcases missing with missing | missing <;> cases missing

/-- The settings ask for it and some entry was skipped or failed. -/
def CountsAsFailure (a : Arguments) (c : Config) (r : Report) : Prop :=
  (a.failOnSkip = true ∨ c.failOnSkip = true) ∧
    ∃ f ∈ r.files, f.outcome.isSkipped = true ∨ f.outcome.isFailed = true

/-- The content of a report file. -/
def reportBytes (a : Arguments) (c : Config) (r : Report) : Bytes :=
  Utf8.encode (reportText (c.withArguments a).format r)

/-- How an execution ends after a run that gave the report `r` and left `after` behind. -/
inductive Ends (a : Arguments) (c : Config) (r : Report) (after : FileSystem) (x : Execution) : Prop
  /-- No report file is asked for. -/
  | printed (output : a.output?.or c.output? = none) (files : x.files = after)
      (failure : CountsAsFailure a c r → x.exit = 2) (success : ¬CountsAsFailure a c r → x.exit = 0)
  /-- The report is written to its file or device, and nothing else changes. -/
  | written {path : Path} {place : Location} {entry : Entry}
      (output : a.output?.or c.output? = some path)
      (writable : IsWritable after path (reportBytes a c r) place entry)
      (files : Changed after x.files place (some entry))
      (failure : CountsAsFailure a c r → x.exit = 2) (success : ¬CountsAsFailure a c r → x.exit = 0)
  /-- The report cannot be written. -/
  | unwritten {path : Path} (output : a.output?.or c.output? = some path)
      (unwritable : ∀ place entry, ¬IsWritable after path (reportBytes a c r) place entry)
      (files : x.files = after) (exit : x.exit = 1)

/-! ### The run -/

variable {config : Config}

/-- Settings that name one directory twice, or one that does not exist, are of no use. -/
theorem combine_of_unready (dryRun : Bool) (clock : Clock)
    (h : Path.alike config.published config.aggregate = true ∨
      fs.isDirectory config.published = false ∨ fs.isDirectory config.aggregate = false) :
    ∃ failure, (combine fs config dryRun clock).result = .error failure ∧
      (combine fs config dryRun clock).files = fs := by
  unfold combine
  cases hvalid : config.validate with
  | error e => exact ⟨_, rfl, rfl⟩
  | ok u =>
    rw [Config.validate_eq_ok_iff.1 hvalid] at h
    have hmissing := h.resolve_left Bool.false_ne_true
    cases hready : Storage.ensureReady (aggregator fs config dryRun).storage with
    | ok u =>
      obtain ⟨hpublished, haggregate⟩ := DirectoryStore.ensureReady_eq_ok_iff.1 hready
      rcases hmissing with hmissing | hmissing
      · cases hpublished.symm.trans hmissing
      · cases haggregate.symm.trans hmissing
    | error e =>
      simp only [Aggregator.run, hready]
      exact ⟨_, rfl, rfl⟩

theorem combine_of_run {dryRun : Bool} {clock : Clock} {report : Report}
    {after : Aggregator DirectoryStore}
    (halike : Path.alike config.published config.aggregate = false)
    (hrun : (aggregator fs config dryRun).run clock.runDate clock.duration = (.ok report, after)) :
    ∃ log, combine fs config dryRun clock = deliver config report log after.storage.files := by
  rw [combine, Config.validate_eq_ok_iff.2 halike]
  simp only [hrun]
  exact ⟨_, rfl⟩

/-- A dry run leaves the files as they are. -/
theorem files_of_dryRun {dryRun : Bool} (hdry : dryRun = true) {runDate : Moment}
    {duration : Binary64} {report : Report} {after : Aggregator DirectoryStore}
    (hrun : (aggregator fs config dryRun).run runDate duration = (.ok report, after)) :
    after.storage.files = fs := by
  have hstorage := Aggregator.storage_run_of_dryRun (a := aggregator fs config dryRun) hdry runDate
    duration
  rw [hrun] at hstorage
  rw [hstorage]
  rfl

/-- **With two directories the run takes place**, and its report is delivered. -/
theorem combine_of_ready (dryRun : Bool) (clock : Clock)
    (halike : Path.alike config.published config.aggregate = false)
    (hpublished : fs.isDirectory config.published = true)
    (haggregate : fs.isDirectory config.aggregate = true) : ∃ report after log,
      (aggregator fs config dryRun).run clock.runDate clock.duration = (.ok report, after) ∧
      combine fs config dryRun clock = deliver config report log after.storage.files := by
  have hready : Storage.ensureReady (aggregator fs config dryRun).storage = .ok () :=
    DirectoryStore.ensureReady_eq_ok_iff.2 ⟨hpublished, haggregate⟩
  obtain ⟨listing, hlist⟩ : ∃ listing,
      Storage.listPending (aggregator fs config dryRun).storage = .ok listing :=
    DirectoryStore.exists_listing hpublished
  obtain ⟨report, hrun, -⟩ :=
    Aggregator.run_of_listing hready hlist clock.runDate clock.duration
  obtain ⟨log, hcombine⟩ := combine_of_run halike hrun
  exact ⟨report, _, log, hrun, hcombine⟩

/-- The exit code of a run that delivered its report. -/
theorem conclude_ok (a : Arguments) (c : Config) (r : Report) :
    (CountsAsFailure a c r → (conclude (c.withArguments a) (.ok r)).1 = 2) ∧
      (¬CountsAsFailure a c r → (conclude (c.withArguments a) (.ok r)).1 = 0) := by
  have hcounts : CountsAsFailure a c r ↔
      ((c.withArguments a).failOnSkip && r.hasProblems) = true := by
    rw [Bool.and_eq_true, Report.hasProblems_iff, CountsAsFailure, Config.withArguments,
      Bool.or_eq_true, or_comm]
  rw [hcounts, conclude]
  cases (c.withArguments a).failOnSkip && r.hasProblems <;> simp

/-- **Delivering the report ends the execution.** -/
theorem ends_deliver {r : Report} {after : FileSystem} {x : Execution} (log : List Log.Entry)
    (hexit : x.exit =
      (conclude (c.withArguments a) (deliver (c.withArguments a) r log after).result).1)
    (hfiles : x.files = (deliver (c.withArguments a) r log after).files) : Ends a c r after x := by
  obtain ⟨hfailure, hsuccess⟩ := conclude_ok a c r
  have houtput : (c.withArguments a).output? = a.output?.or c.output? := rfl
  cases hpath : a.output?.or c.output? with
  | none =>
    simp only [deliver, houtput, hpath] at hexit hfiles
    exact .printed hpath hfiles (fun h => hexit.trans (hfailure h)) fun h => hexit.trans (hsuccess h)
  | some path =>
    rcases FileSystem.write_cases after path (reportBytes a c r) with
      ⟨files, place, entry, hwrite, hwritable, hchanged⟩ | ⟨fault, hwrite, hunwritable⟩
    · rw [reportBytes] at hwrite
      simp only [deliver, houtput, hpath, hwrite] at hexit hfiles
      exact .written hpath hwritable (hfiles ▸ hchanged) (fun h => hexit.trans (hfailure h)) fun h =>
        hexit.trans (hsuccess h)
    · rw [reportBytes] at hwrite
      simp only [deliver, houtput, hpath, hwrite] at hexit hfiles
      exact .unwritten hpath hunwritable hfiles hexit

/-! ### The execution -/

/-- An execution that is hindered touches nothing and fails. -/
structure IsRefusal (fs : FileSystem) (x : Execution) : Prop where
  exit : x.exit = 1
  files : x.files = fs

theorem isRefusal_of_isHindered (clock : Clock) (hinit : a.initConfig = false)
    (h : IsHindered fs a) : IsRefusal fs (runArguments fs a clock) := by
  unfold runArguments
  cases hvalid : a.validate fs with
  | error conflict => exact ⟨rfl, rfl⟩
  | ok u =>
    simp only [hinit]
    cases hload : loadConfig fs a with
    | error e => exact ⟨rfl, rfl⟩
    | ok loaded =>
      obtain ⟨c, source⟩ := loaded
      have hunready : Path.alike (c.withArguments a).published (c.withArguments a).aggregate = true ∨
          fs.isDirectory (c.withArguments a).published = false ∨
          fs.isDirectory (c.withArguments a).aggregate = false := by
        have hunique : ∀ c', IsConfigured fs a c' → c' = c := fun c' hc' =>
          hc'.unique (isConfigured_iff.2 ⟨source, hload⟩)
        cases h with
        | arguments hrefused => exact absurd hrefused ((Arguments.validate_eq_ok_iff hinit).1 hvalid)
        | config hasked hunusable =>
          obtain ⟨e, hload'⟩ := loadConfig_eq_error_iff.2 ⟨_, hasked, hunusable⟩
          cases hload.symm.trans hload'
        | sameDirectory hconfigured halike => exact Or.inl (hunique _ hconfigured ▸ halike)
        | missing hconfigured hmissing => exact Or.inr (hunique _ hconfigured ▸ hmissing)
      obtain ⟨failure, hresult, hfiles⟩ := combine_of_unready a.dryRun clock hunready
      refine ⟨?_, hfiles⟩
      show (conclude _ (combine fs (c.withArguments a) a.dryRun clock).result).1 = 1
      rw [hresult]
      rfl

/-- An execution that is not hindered makes its run. -/
theorem exists_run (clock : Clock) (hinit : a.initConfig = false) (h : ¬IsHindered fs a) :
    ∃ c report after, IsConfigured fs a c ∧
      (aggregator fs (c.withArguments a) a.dryRun).run clock.runDate clock.duration =
        (.ok report, after) ∧
      Ends a c report after.storage.files (runArguments fs a clock) := by
  unfold runArguments
  cases hvalid : a.validate fs with
  | error conflict =>
    have hrefused : ¬¬a.IsRefused fs := mt (Arguments.validate_eq_ok_iff hinit).2 (by simp [hvalid])
    exact absurd (.arguments (not_not.1 hrefused)) h
  | ok u =>
    simp only [hinit]
    cases hload : loadConfig fs a with
    | error e =>
      obtain ⟨path, hasked, hunusable⟩ := loadConfig_eq_error_iff.1 ⟨e, hload⟩
      exact absurd (.config hasked hunusable) h
    | ok loaded =>
      obtain ⟨c, source⟩ := loaded
      have hconfigured : IsConfigured fs a c := isConfigured_iff.2 ⟨source, hload⟩
      have halike : Path.alike (c.withArguments a).published (c.withArguments a).aggregate = false :=
        Bool.eq_false_iff.2 fun halike => h (.sameDirectory hconfigured halike)
      have hpublished : fs.isDirectory (c.withArguments a).published = true :=
        Bool.not_eq_false _ ▸ fun hmissing => h (.missing hconfigured (Or.inl hmissing))
      have haggregate : fs.isDirectory (c.withArguments a).aggregate = true :=
        Bool.not_eq_false _ ▸ fun hmissing => h (.missing hconfigured (Or.inr hmissing))
      obtain ⟨report, after, log, hrun, hcombine⟩ :=
        combine_of_ready a.dryRun clock halike hpublished haggregate
      refine ⟨c, report, after, hconfigured, hrun, ends_deliver log ?_ ?_⟩
      · rw [← hcombine]
        rfl
      · rw [← hcombine]
        rfl

/-- **Exit codes and atomicity of the command line.**  If anything hinders the run, the execution
fails and touches nothing.  Otherwise the run takes place on the configured directories, and the
execution ends with the report printed, written, or not to be written.  A dry run changes at
most what the report is written to. -/
theorem execute_cases {arguments : List Bytes} (hparse : CommandLine.parse arguments = .ok (.run a))
    (hinit : a.initConfig = false) (fs : FileSystem) (clock : Clock) :
    (IsHindered fs a → IsRefusal fs (execute fs arguments clock)) ∧
    (¬IsHindered fs a → ∃ c report after, IsConfigured fs a c ∧
      (aggregator fs (c.withArguments a) a.dryRun).run clock.runDate clock.duration =
        (.ok report, after) ∧
      Ends a c report after.storage.files (execute fs arguments clock)) ∧
    (a.dryRun = true → ∀ l, (execute fs arguments clock).files.entryAt? l ≠ fs.entryAt? l →
      ∃ c report path entry, IsConfigured fs a c ∧ a.output?.or c.output? = some path ∧
        IsWritable fs path (reportBytes a c report) l entry) := by
  have hexecute : execute fs arguments clock = runArguments fs a clock := by rw [execute, hparse]
  rw [hexecute]
  refine ⟨isRefusal_of_isHindered clock hinit, exists_run clock hinit, fun hdry l hl => ?_⟩
  by_cases h : IsHindered fs a
  · rw [(isRefusal_of_isHindered clock hinit h).files] at hl
    exact absurd rfl hl
  · obtain ⟨c, report, after, hconfigured, hrun, hends⟩ := exists_run clock hinit h
    rw [files_of_dryRun hdry hrun] at hends
    cases hends with
    | printed _ hfiles | unwritten _ _ hfiles =>
      rw [hfiles] at hl
      exact absurd rfl hl
    | @written path place entry houtput hwritable hchanged =>
      obtain rfl : l = place := by
        by_contra hne
        exact hl (hchanged.kept l hne)
      exact ⟨c, report, path, entry, hconfigured, houtput, hwritable⟩

/-- A dry run over two directories, one of which has a name that is not text, that reports to a
device. -/
theorem execute_cases_dry_run :
    let arguments := [Utf8.encode "--published-dir", [Path.slash, 0xFF],
      Utf8.encode "--aggregate-dir=/out", Utf8.encode "--dry-run", Utf8.encode "-o/null"]
    let a := { Arguments.none with
      published? := some [Path.slash, 0xFF], aggregate? := some (Path.ofString "/out"),
      output? := some (Path.ofString "/null"), dryRun := true }
    let fs := (((FileSystem.mk ∅ []).insert [[0xFF]] .directory).insert [Utf8.encode "out"]
      .directory).insert [Utf8.encode "null"] (.device ⟨.carries [], .carries []⟩)
    let clock : Clock := ⟨⟨0, 0⟩, .zero false⟩
    CommandLine.parse arguments = .ok (.run a) ∧ a.initConfig = false ∧
    (IsHindered fs a → IsRefusal fs (execute fs arguments clock)) ∧
    (¬IsHindered fs a → ∃ c report after, IsConfigured fs a c ∧
      (aggregator fs (c.withArguments a) a.dryRun).run clock.runDate clock.duration =
        (.ok report, after) ∧
      Ends a c report after.storage.files (execute fs arguments clock)) ∧
    (a.dryRun = true → ∀ l, (execute fs arguments clock).files.entryAt? l ≠ fs.entryAt? l →
      ∃ c report path entry, IsConfigured fs a c ∧ a.output?.or c.output? = some path ∧
        IsWritable fs path (reportBytes a c report) l entry) := by
  intro arguments a fs clock
  have hparse : CommandLine.parse arguments = .ok (.run a) := by decide +kernel
  exact ⟨hparse, rfl, execute_cases hparse rfl fs clock⟩

end Program
end Rollup
