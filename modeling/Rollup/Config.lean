/-
# Configuration

The settings of a run come from a configuration file and the command line; what
is given on the command line wins.  In the file every setting may be left out and
unknown keys are ignored.  A group of settings may also be written as an array of
their values in order; a date or time in its place counts as a group with none of
them.
-/

import Rollup.CommandLine.Arguments
import Rollup.Toml.Document
import Rollup.Toml.Printer

namespace Rollup

structure Config where
  verbose : Bool
  failOnSkip : Bool
  published : Path
  aggregate : Path
  format : ReportFormat
  /-- Where the report goes instead of the standard output. -/
  output? : Option Path
  deriving DecidableEq, Repr

namespace Config

/-- The settings where nothing is configured. -/
def default : Config where
  verbose := false
  failOnSkip := false
  published := Path.ofString "../published"
  aggregate := Path.ofString "../aggregate"
  format := .text
  output? := none

/-- The name of the configuration file in the working directory. -/
def fileName : String := ".mt-combine.toml"

/-- The value of a setting in a group of settings; fails if the group is no group. -/
def member? (group? : Option Toml.Value) (index : Nat) (name : String) : Option (Option Toml.Value) :=
  match group? with
  | none => some none
  | some (.table _ _ entries) => some (Toml.Entries.get? name entries)
  | some (.array elements) | some (.tables elements) => some elements[index]?
  | some (.dateTime _) => some none
  | some (.bool _) | some (.integer _) | some (.float _) | some (.text _) => none

/-- A setting with its default; fails if its value is of another kind. -/
def setting? {α : Type} (group? : Option Toml.Value) (index : Nat) (name : String)
    (read? : Toml.Value → Option α) (default : α) : Option α := do
  match ← member? group? index name with
  | some value => read? value
  | none => return default

def bool? : Toml.Value → Option Bool
  | .bool b => some b
  | _ => none

def path? : Toml.Value → Option Path
  | .text s => some (Path.ofString s)
  | _ => none

/-- A value that holds nothing. -/
def isVoid : Toml.Value → Bool
  | .array elements | .tables elements => elements.isEmpty
  | .table _ _ entries => entries.isEmpty
  | _ => false

/-- A format is given by its name, or by a table whose first key is the name and
holds nothing; a table in braces has no other key. -/
def format? : Toml.Value → Option ReportFormat
  | .text name => ReportFormat.ofName? name
  | .table inBraces _ ((name, value) :: rest) =>
    if isVoid value && (rest.isEmpty || !inBraces) then ReportFormat.ofName? name else none
  | _ => none

/-- The settings in a document. -/
def ofToml? (document : Toml.Entries) : Option Config := do
  let general := Toml.Entries.get? "general" document
  let paths := Toml.Entries.get? "paths" document
  let report := Toml.Entries.get? "report" document
  return {
    verbose := ← setting? general 0 "verbose" bool? default.verbose
    failOnSkip := ← setting? general 1 "fail_on_skip" bool? default.failOnSkip
    published := ← setting? paths 0 "published_dir" path? default.published
    aggregate := ← setting? paths 1 "aggregate_dir" path? default.aggregate
    format := ← setting? report 0 "format" format? default.format
    output? := ← setting? report 1 "output" (fun v => (path? v).map some) default.output? }

/-- The settings in a text. -/
def parse? (text : String) : Option Config := (Toml.parse? text).bind ofToml?

/-- A line that gives a path; none unless the path is text. -/
def pathLine? (name : String) (path : Path) : Option String :=
  (Utf8.decode? path).map fun text =>
    name ++ " = " ++ String.ofList (Toml.quoteText text) ++ "\n"

/-- The settings as a document; none if a path is not text. -/
def toToml? (c : Config) : Option String := do
  let published ← pathLine? "published_dir" c.published
  let aggregate ← pathLine? "aggregate_dir" c.aggregate
  let output ← match c.output? with
    | some path => pathLine? "output" path
    | none => some ""
  return "[general]\nverbose = " ++ Arguments.boolText c.verbose ++
    "\nfail_on_skip = " ++ Arguments.boolText c.failOnSkip ++
    "\n\n[paths]\n" ++ published ++ aggregate ++
    "\n[report]\nformat = \"" ++ c.format.name ++ "\"\n" ++ output

/-- The default settings as a document. -/
def defaultToml : String := default.toToml?.getD ""

/-- Why a configuration file is of no use. -/
inductive LoadError where
  | unreadable (path : Path) (fault : Fault)
  | notUtf8 (path : Path)
  | malformed (path : Path)
  deriving DecidableEq, Repr

namespace LoadError

/-- What failed. -/
def summary : LoadError → String
  | .unreadable path _ | .notUtf8 path => "Failed to read config file: " ++ Path.display path
  | .malformed path => "Failed to parse config file: " ++ Path.display path

def cause : LoadError → String
  | .unreadable _ fault => fault.message
  | .notUtf8 _ => "stream did not contain valid UTF-8"
  | .malformed _ => "TOML parse error"

def message (e : LoadError) : String := e.summary ++ ": " ++ e.cause

end LoadError

/-- The settings in a file. -/
def load (fs : FileSystem) (path : Path) : Except LoadError Config :=
  match fs.read path with
  | .error fault => .error (.unreadable path fault)
  | .ok content =>
    match Utf8.decode? content with
    | none => .error (.notUtf8 path)
    | some text =>
      match parse? text with
      | some config => .ok config
      | none => .error (.malformed path)

/-- The settings in the configuration file of a directory, if it has one. -/
def loadFrom (fs : FileSystem) (directory : Path) : Except LoadError (Option Config) :=
  let path := Path.join directory (Path.ofString fileName)
  if fs.exists? path then (load fs path).map some else .ok none

/-- The settings with those of the command line on top. -/
def withArguments (c : Config) (a : Arguments) : Config where
  verbose := c.verbose || a.verbose
  failOnSkip := c.failOnSkip || a.failOnSkip
  published := a.published?.getD c.published
  aggregate := a.aggregate?.getD c.aggregate
  format := a.format?.getD c.format
  output? := a.output?.or c.output?

/-- Both directories are the same. -/
structure SameDirectory where
  path : Path
  deriving DecidableEq, Repr

def SameDirectory.message (e : SameDirectory) : String :=
  "published and aggregate directories must differ (both are " ++ Path.display e.path ++ ")"

/-- Check settings: published files and aggregates are kept apart. -/
def validate (c : Config) : Except SameDirectory Unit :=
  if Path.alike c.published c.aggregate then .error ⟨c.published⟩ else .ok ()

end Config
end Rollup
