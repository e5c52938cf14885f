/-
# The command-line program

The program reads its arguments, finds its configuration, runs the aggregator over
two directories and writes the report.  It is a function of the files, the
arguments and the clock; what it does to the files and what it prints are its
result (`Execution`).

| exit | meaning |
| ---: | --- |
| 0 | success |
| 1 | bad settings, a missing directory, or a report that could not be written |
| 2 | bad usage, or files left behind where that counts as a failure |
-/

import Rollup.Aggregator
import Rollup.CommandLine.Parser
import Rollup.Config
import Rollup.Report.Json
import Rollup.Report.Text
import Rollup.Storage.Directory

namespace Rollup
namespace Program

def name : String := "mt-combine"

def version : String := "1.0.0"

/-- What an execution leaves behind. -/
structure Execution where
  exit : Nat
  stdout : String
  /-- The lines on the standard error stream. -/
  stderr : List String
  files : FileSystem

/-- The clock as a run sees it. -/
structure Clock where
  runDate : Moment
  /-- The duration of the run in seconds. -/
  duration : Binary64

/-- Where the settings come from. -/
inductive Source where
  | file (path : Path)
  | defaults
  /-- The file in the working directory is of no use. -/
  | fallback (error : Config.LoadError)
  deriving DecidableEq, Repr

def Source.note : Source → Log.Entry
  | .file path => .info ("Loaded config from " ++ Path.display path)
  | .defaults => .debug "No config file found, using defaults"
  | .fallback error => .warn ("Failed to load config: " ++ error.message)

/-- The settings of the configuration file.  One that was asked for has to be
usable; in place of the one in the working directory the defaults will do. -/
def loadConfig (fs : FileSystem) (a : Arguments) : Except Config.LoadError (Config × Source) :=
  match a.config? with
  | some path => (Config.load fs path).map fun config => (config, .file path)
  | none =>
    match Config.loadFrom fs Path.dot with
    | .ok (some config) => .ok (config, .file (Path.ofString Config.fileName))
    | .ok none => .ok (Config.default, .defaults)
    | .error error => .ok (Config.default, .fallback error)

/-- Why a run fails as a whole. -/
inductive Failure where
  | sameDirectory (error : Config.SameDirectory)
  | aborted (error : StorageError)
  | unwritten (path : Path) (fault : Fault)
  deriving DecidableEq, Repr

def Failure.message : Failure → String
  | .sameDirectory error => error.message
  | .aborted error => "Run aborted: " ++ error.message
  | .unwritten path fault => "Failed to write report to " ++ Path.display path ++ ": " ++ fault.message

/-- What a run leaves behind. -/
structure Run where
  result : Except Failure Report
  stdout : String
  log : List Log.Entry
  files : FileSystem

/-- The report in the configured form. -/
def reportText (format : ReportFormat) (r : Report) : String :=
  match format with
  | .text => r.text
  | .json => r.jsonText

def completionNote (r : Report) : Log.Entry :=
  .info ("Run complete: " ++ Decimal.natText r.merged ++ " merged, " ++ Decimal.natText r.planned ++
    " planned, " ++ Decimal.natText r.skipped ++ " skipped, " ++ Decimal.natText r.failed ++ " failed")

/-- Write the report of a run where the settings say. -/
def deliver (config : Config) (r : Report) (log : List Log.Entry) (files : FileSystem) : Run :=
  let text := reportText config.format r
  match config.output? with
  | none => ⟨.ok r, text, log, files⟩
  | some path =>
    match files.write path (Utf8.encode text) with
    | .ok files => ⟨.ok r, "✅ Report saved to: " ++ Path.display path ++ "\n", log, files⟩
    | .error fault => ⟨.error (.unwritten path fault), "", log, files⟩

/-- The aggregator over the configured directories. -/
def aggregator (fs : FileSystem) (config : Config) (dryRun : Bool) : Aggregator DirectoryStore :=
  .new ⟨fs, config.published, config.aggregate⟩ dryRun

/-- Merge the published files and write the report. -/
def combine (fs : FileSystem) (config : Config) (dryRun : Bool) (clock : Clock) : Run :=
  match config.validate with
  | .error error => ⟨.error (.sameDirectory error), "", [], fs⟩
  | .ok () =>
    let a := aggregator fs config dryRun
    let opening : List Log.Entry :=
      if dryRun then [.info "Dry run: nothing will be written or deleted"] else []
    let log := opening ++ a.runLog
    match a.run clock.runDate clock.duration with
    | (.error error, after) => ⟨.error (.aborted error), "", log, after.storage.files⟩
    | (.ok report, after) =>
      deliver config report (log ++ [completionNote report]) after.storage.files

/-- The exit code and the closing lines of a run. -/
def conclude (config : Config) : Except Failure Report → Nat × List String
  | .error failure => (1, ["", "❌ Error: " ++ failure.message])
  | .ok r =>
    if config.failOnSkip && r.hasProblems then
      (2, ["", "⛔ " ++ Decimal.natText (r.skipped + r.failed) ++
        " file(s) left in place. Failing (exit code 2)."])
    else (0, [])

/-- The threshold of the log; settings can only make it more talkative, and never
against a request to be quiet. -/
def logLevel (config : Config) (a : Arguments) : Log.Level :=
  if !a.quiet && config.verbose then .debug else a.logLevel

/-- The log of a failure as a whole. -/
def failureLog : Except Failure Report → List Log.Entry
  | .error failure => [.error ("Run failed: " ++ failure.message)]
  | .ok _ => []

/-- Run with the given settings. -/
def runWith (fs : FileSystem) (a : Arguments) (config : Config) (source : Source) (clock : Clock) :
    Execution :=
  let run := combine fs config a.dryRun clock
  let log := [.info (name ++ " v" ++ version), .debug ("Arguments: " ++ a.text), source.note] ++
    run.log ++ failureLog run.result
  let (exit, closing) := conclude config run.result
  { exit, stdout := run.stdout, stderr := Log.lines (logLevel config a) log ++ closing,
    files := run.files }

/-- Write a configuration file with the default settings. -/
def initConfig (fs : FileSystem) : Execution :=
  let path := Path.ofString Config.fileName
  if fs.exists? path then
    ⟨1, "", ["⚠️  " ++ Config.fileName ++ " already exists. Remove it first or edit it manually."], fs⟩
  else
    match fs.write path (Utf8.encode Config.defaultToml) with
    | .error fault =>
      ⟨1, "", ["Error: Failed to write " ++ Config.fileName, "", "Caused by:", "    " ++ fault.message], fs⟩
    | .ok files =>
      ⟨0, "✅ Created " ++ Config.fileName ++ " with default settings.\n" ++
        "   Edit it to change the published and aggregate directories.\n", [], files⟩

/-- Do what valid arguments ask for. -/
def runArguments (fs : FileSystem) (a : Arguments) (clock : Clock) : Execution :=
  match a.validate fs with
  | .error conflict => ⟨1, "", ["Error: " ++ conflict.message], fs⟩
  | .ok () =>
    if a.initConfig then initConfig fs
    else
      match loadConfig fs a with
      | .error error => ⟨1, "", ["Error: " ++ error.message], fs⟩
      | .ok (config, source) => runWith fs a (config.withArguments a) source clock

/-- The names that the command line knows. -/
def helpText : String :=
  "Usage: " ++ name ++ " [OPTIONS]\n\nOptions:\n" ++
    String.join (CommandLine.Key.all.map fun key =>
      let short := match key.short? with
        | some letter => "-" ++ letter.toString ++ ", "
        | none => "    "
      "  " ++ short ++ "--" ++ key.long ++ (if key.takesValue then " <VALUE>\n" else "\n"))

/-- Do what a command line asks for. -/
def execute (fs : FileSystem) (arguments : List Bytes) (clock : Clock) : Execution :=
  match CommandLine.parse arguments with
  | .error error => ⟨2, "", ["error: " ++ error.message], fs⟩
  | .ok .help => ⟨0, helpText, [], fs⟩
  | .ok .version => ⟨0, name ++ " " ++ version ++ "\n", [], fs⟩
  | .ok (.run a) => runArguments fs a clock

end Program
end Rollup
