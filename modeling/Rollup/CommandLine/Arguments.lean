/-
# Arguments of the command line

The settings that a command line can give, and what they must not say together.
Arguments are checked before any configuration file is read.
-/

import Rollup.FileSystem.Operations
import Rollup.Log

namespace Rollup

/-- The form in which a report is written. -/
inductive ReportFormat where
  | text
  | json
  deriving DecidableEq, Repr

namespace ReportFormat

def name : ReportFormat → String
  | .text => "text"
  | .json => "json"

def ofName? (name : String) : Option ReportFormat :=
  if name = "text" then some .text else if name = "json" then some .json else none

end ReportFormat

/-- What was given on the command line. -/
structure Arguments where
  published? : Option Path
  aggregate? : Option Path
  config? : Option Path
  verbose : Bool
  quiet : Bool
  dryRun : Bool
  format? : Option ReportFormat
  output? : Option Path
  failOnSkip : Bool
  initConfig : Bool
  deriving DecidableEq, Repr

namespace Arguments

/-- Nothing was given. -/
def none : Arguments where
  published? := .none
  aggregate? := .none
  config? := .none
  verbose := false
  quiet := false
  dryRun := false
  format? := .none
  output? := .none
  failOnSkip := false
  initConfig := false

/-- Why arguments are refused. -/
inductive Conflict where
  | verboseAndQuiet
  | sameDirectory
  | outputIsDirectory (path : Path)
  deriving DecidableEq, Repr

def Conflict.message : Conflict → String
  | .verboseAndQuiet => "Cannot use both --verbose and --quiet"
  | .sameDirectory => "--published-dir and --aggregate-dir must be different directories"
  | .outputIsDirectory path => "Output path is a directory: " ++ Path.display path

/-- Two paths that are both given and alike. -/
def sameGiven : Option Path → Option Path → Bool
  | some p, some q => Path.alike p q
  | _, _ => false

/-- Check arguments; those that only ask for a configuration file always pass. -/
def validate (a : Arguments) (fs : FileSystem) : Except Conflict Unit :=
  if a.initConfig then .ok ()
  else if a.verbose && a.quiet then .error .verboseAndQuiet
  else if sameGiven a.published? a.aggregate? then .error .sameDirectory
  else match a.output? with
    | some path => if fs.isDirectory path then .error (.outputIsDirectory path) else .ok ()
    | .none => .ok ()

/-- The threshold of the log. -/
def logLevel (a : Arguments) : Log.Level :=
  if a.quiet then .error else if a.verbose then .debug else .info

/-- A setting that may be absent, for the log. -/
def shown (show' : α → String) : Option α → String
  | some a => "Some(" ++ show' a ++ ")"
  | .none => "None"

def boolText (b : Bool) : String := if b then "true" else "false"

def ReportFormat.constructorName : ReportFormat → String
  | .text => "Text"
  | .json => "Json"

/-- All arguments, for the log. -/
def text (a : Arguments) : String :=
  let path := shown Text.quotedBytes
  "Args \x7b published_dir: " ++ path a.published? ++ ", aggregate_dir: " ++ path a.aggregate? ++
  ", config: " ++ path a.config? ++ ", verbose: " ++ boolText a.verbose ++
  ", quiet: " ++ boolText a.quiet ++ ", dry_run: " ++ boolText a.dryRun ++
  ", format: " ++ shown ReportFormat.constructorName a.format? ++
  ", output: " ++ path a.output? ++ ", fail_on_skip: " ++ boolText a.failOnSkip ++
  ", init_config: " ++ boolText a.initConfig ++ " \x7d"

end Arguments
end Rollup
