/-
# Reports that are to replace a directory

The path of the report is given on the command line or in the configuration file
(`Program.ReportsTo`).  If it leads to a directory, an execution fails, wherever it was
given (`Program.report_directory_fails`).  What it leaves behind is another matter.  The
path on the command line is tested with the arguments, before anything is touched.  The one
in the configuration file is not, and so the run takes place, and the report is lost.

A run changes no way to a directory, so the path leads to one after the run as well, and
then nothing can be written there.
-/

import Rollup.Proofs.Program.Execution
import Rollup.Proofs.Run.Ways

namespace Rollup
namespace Program

open FileSystem DirectoryStore

variable {fs : FileSystem} {a : Arguments} {c : Config} {path : Path}

/-- The report is to be written to the path. -/
inductive ReportsTo (fs : FileSystem) (a : Arguments) : Path → Prop
  /-- The command line names it. -/
  | asked {path : Path} (output : a.output? = some path) : ReportsTo fs a path
  /-- The configuration file names it, and the command line names none. -/
  | configured {c : Config} {path : Path} (unasked : a.output? = none)
      (configured : IsConfigured fs a c) (output : c.output? = some path) : ReportsTo fs a path

/-- The path is the one that the settings give. -/
theorem ReportsTo.output?_eq (h : ReportsTo fs a path) (hconfigured : IsConfigured fs a c) :
    a.output?.or c.output? = some path := by
  cases h with
  | asked output => rw [output, Option.some_or]
  | configured unasked configured output =>
    rw [unasked, Option.none_or, hconfigured.unique configured, output]

/-- A directory that is named on the command line is refused with the arguments. -/
theorem isHindered_of_asked (houtput : a.output? = some path)
    (hdir : fs.isDirectory path = true) : IsHindered fs a :=
  .arguments (.outputIsDirectory houtput hdir)

/-- **A run whose report is to replace a directory** fails, and leaves what the run left. -/
theorem Ends.of_directory {r : Report} {after : FileSystem} {x : Execution}
    (h : Ends a c r after x) (houtput : a.output?.or c.output? = some path)
    (hdir : after.isDirectory path = true) : x.exit = 1 ∧ x.files = after := by
  cases h with
  | printed output => cases output.symm.trans houtput
  | written output writable =>
    obtain rfl := Option.some.inj (output.symm.trans houtput)
    exact absurd writable (not_isWritable_of_isDirectory hdir _ _)
  | unwritten output unwritable files exit => exact ⟨exit, files⟩

/-- **With a directory in the place of the report** an execution that is not hindered makes its run
and fails.  The path leads to a directory after the run, as it did before. -/
theorem run_of_directory (clock : Clock) (hinit : a.initConfig = false) (hnames : fs.IsProperlyNamed)
    (hreport : ReportsTo fs a path) (hdir : fs.isDirectory path = true) (h : ¬IsHindered fs a) :
    ∃ c report after, IsConfigured fs a c ∧ a.output?.or c.output? = some path ∧
      (aggregator fs (c.withArguments a) a.dryRun).run clock.runDate clock.duration =
        (.ok report, after) ∧
      (runArguments fs a clock).exit = 1 ∧
      (runArguments fs a clock).files = after.storage.files := by
  obtain ⟨c, report, after, hconfigured, hrun, hends⟩ := exists_run clock hinit h
  have houtput := hreport.output?_eq hconfigured
  have hput := Aggregator.staysPut_run (a := aggregator fs (c.withArguments a) a.dryRun) hnames
    clock.runDate clock.duration
  rw [hrun] at hput
  obtain ⟨hexit, hfiles⟩ := hends.of_directory houtput ((hput.isDirectory_iff path).2 hdir)
  exact ⟨c, report, after, hconfigured, houtput, hrun, hexit, hfiles⟩

/-- **Reports that are to replace a directory.**  If the path of the report leads to a directory,
the execution fails, wherever the path was given.  Nothing is touched if the path was given on the
command line, nor in a dry run, nor if anything else hinders the run.  If it was given in the
configuration file, the run takes place all the same, and the files are as the run left them. -/
theorem report_directory_fails {arguments : List Bytes}
    (hparse : CommandLine.parse arguments = .ok (.run a)) (hinit : a.initConfig = false)
    (hnames : fs.IsProperlyNamed) (hreport : ReportsTo fs a path)
    (hdir : fs.isDirectory path = true) (clock : Clock) :
    (execute fs arguments clock).exit = 1 ∧
    (a.output? = some path ∨ a.dryRun = true ∨ IsHindered fs a →
      (execute fs arguments clock).files = fs) ∧
    (a.output? = none → ¬IsHindered fs a → ∃ c report after, IsConfigured fs a c ∧
      c.output? = some path ∧
      (aggregator fs (c.withArguments a) a.dryRun).run clock.runDate clock.duration =
        (.ok report, after) ∧
      (execute fs arguments clock).files = after.storage.files) := by
  have hexecute : execute fs arguments clock = runArguments fs a clock := by rw [execute, hparse]
  rw [hexecute]
  by_cases hhindered : IsHindered fs a
  · have hrefusal := isRefusal_of_isHindered clock hinit hhindered
    exact ⟨hrefusal.exit, fun _ => hrefusal.files, fun _ h => absurd hhindered h⟩
  · obtain ⟨c, report, after, hconfigured, houtput, hrun, hexit, hfiles⟩ :=
      run_of_directory clock hinit hnames hreport hdir hhindered
    refine ⟨hexit, fun h => ?_, fun hunasked _ => ⟨c, report, after, hconfigured, ?_, hrun, hfiles⟩⟩
    · rcases h with hasked | hdry | h
      · exact absurd (isHindered_of_asked hasked hdir) hhindered
      · rw [hfiles, files_of_dryRun hdry hrun]
      · exact absurd h hhindered
    · rwa [hunasked, Option.none_or] at houtput

/-- A dry run that is told in the configuration file to replace a directory. -/
theorem report_directory_fails_dry_run :
    let settings := "[paths]\npublished_dir = \"in\"\naggregate_dir = \"out\"\n" ++
      "[report]\noutput = \"report\"\n"
    let fs := ((((FileSystem.mk ∅ []).insert [Utf8.encode "in"] .directory).insert
      [Utf8.encode "out"] .directory).insert [Utf8.encode "report"] .directory).insert
      [Path.ofString Config.fileName] (.file (Utf8.encode settings))
    let arguments := [Utf8.encode "--dry-run"]
    let a := { Arguments.none with dryRun := true }
    let path := Path.ofString "report"
    let clock : Clock := ⟨⟨0, 0⟩, .zero false⟩
    CommandLine.parse arguments = .ok (.run a) ∧ a.initConfig = false ∧ fs.IsProperlyNamed ∧
    ReportsTo fs a path ∧ fs.isDirectory path = true ∧
    (execute fs arguments clock).exit = 1 ∧
    (a.output? = some path ∨ a.dryRun = true ∨ IsHindered fs a →
      (execute fs arguments clock).files = fs) ∧
    (a.output? = none → ¬IsHindered fs a → ∃ c report after, IsConfigured fs a c ∧
      c.output? = some path ∧
      (aggregator fs (c.withArguments a) a.dryRun).run clock.runDate clock.duration =
        (.ok report, after) ∧
      (execute fs arguments clock).files = after.storage.files) := by
  intro settings fs arguments a path clock
  have hparse : CommandLine.parse arguments = .ok (.run a) := by decide +kernel
  have hnames : fs.IsProperlyNamed := isProperlyNamed_of_keys (by decide +kernel)
  have hread : fs.read defaultPath = .ok (Utf8.encode settings) := by decide +kernel
  have hsettings : Config.parse? settings = some { Config.default with
      published := Path.ofString "in", aggregate := Path.ofString "out", output? := some path } := by
    decide +kernel
  have hreport : ReportsTo fs a path := .configured rfl (.found rfl ⟨settings, hread, hsettings⟩) rfl
  have hdir : fs.isDirectory path = true := by decide +kernel
  exact ⟨hparse, rfl, hnames, hreport, hdir,
    report_directory_fails hparse rfl hnames hreport hdir clock⟩

/-- **A report path in the configuration file is tested too late.**  The execution fails, and the
published file is gone. -/
theorem report_directory_too_late :
    let content := Utf8.encode "1\n0.5\n0.1\n"
    let settings := "[paths]\npublished_dir = \"in\"\naggregate_dir = \"out\"\n" ++
      "[report]\noutput = \"report\"\n"
    let fs := (((((FileSystem.mk ∅ []).insert [Utf8.encode "in"] .directory).insert
      [Utf8.encode "out"] .directory).insert [Utf8.encode "report"] .directory).insert
      [Path.ofString Config.fileName] (.file (Utf8.encode settings))).insert
      [Utf8.encode "in", Utf8.encode "web_1"] (.file content)
    let path := Path.ofString "report"
    let x := execute fs [] ⟨⟨0, 0⟩, .zero false⟩
    CommandLine.parse [] = .ok (.run .none) ∧ Arguments.none.initConfig = false ∧ fs.IsTree ∧
    ReportsTo fs .none path ∧ fs.isDirectory path = true ∧ x.exit = 1 ∧
    fs.entryAt? [Utf8.encode "in", Utf8.encode "web_1"] = some (.file content) ∧
    x.files.entryAt? [Utf8.encode "in", Utf8.encode "web_1"] = none ∧
    x.files.entryAt? [Utf8.encode "out", Utf8.encode "web"] = some (.file content) := by
  intro content settings fs path x
  have hparse : CommandLine.parse [] = .ok (.run .none) := by decide +kernel
  have htree : fs.IsTree := isTree_of_keys (by decide +kernel) (by decide +kernel) rfl
  let c : Config := { Config.default with
    published := Path.ofString "in", aggregate := Path.ofString "out", output? := some path }
  have hread : fs.read defaultPath = .ok (Utf8.encode settings) := by decide +kernel
  have hsettings : Config.parse? settings = some c := by decide +kernel
  have hconfigured : IsConfigured fs .none c := .found rfl ⟨settings, hread, hsettings⟩
  have hreport : ReportsTo fs .none path := .configured rfl hconfigured rfl
  have hdir : fs.isDirectory path = true := by decide +kernel
  have hfree : ¬IsHindered fs .none := not_isHindered ((Arguments.validate_eq_ok_iff rfl).1 rfl) hconfigured (by decide +kernel)
    (by decide +kernel) (by decide +kernel)
  obtain ⟨c', report, after, hc', -, hrun, hexit, hfiles⟩ :=
    run_of_directory ⟨⟨0, 0⟩, .zero false⟩ rfl htree.names hreport hdir hfree
  rw [hc'.unique hconfigured] at hrun
  have hx : x = runArguments fs .none ⟨⟨0, 0⟩, .zero false⟩ := by simp only [x, execute, hparse]
  -- One file is pending, and the run is the attempt at it.
  let b := aggregator fs (c.withArguments .none) false
  have hready : Storage.ensureReady b.storage = .ok () := by decide +kernel
  have hlist : Storage.listPending b.storage = .ok ⟨["web_1"], []⟩ := by decide +kernel
  have hstorage : after.storage = (b.attempt "web_1").2.storage :=
    (congrArg (fun run => run.2.storage) hrun).symm.trans
      (Aggregator.storage_run_of_listing hready hlist ⟨0, 0⟩ (.zero false))
  have hg : GroupName.ofFile "web_1" = .ok ⟨"web", by simp [isUsableName]⟩ := by cbv
  simp only [Aggregator.attempt, hg] at hstorage
  rw [hx, hfiles, hstorage]
  exact ⟨hparse, rfl, htree, hreport, hdir, hexit, by decide +kernel, by decide +kernel,
    by decide +kernel⟩

end Program
end Rollup
