/-
# Reading the command line

Options take a value, as the next argument or behind an equals sign; flags take
none.  Short names may be gathered behind one hyphen, and a short option takes the
rest of its argument as the value.  A hyphen alone is a value.  Nothing may be
given twice, and there are no arguments without a name.

An option that still waits for its value is settled when the next known name
comes or the command line ends; only then are its faults reported.  An unknown
argument is therefore reported before them.

Arguments are byte strings, since paths are.  All names are ASCII, so a byte that
belongs to no name is as good as unknown, whatever character it is a part of.
-/

import Rollup.CommandLine.Arguments

namespace Rollup
namespace CommandLine

/-- A name that the command line knows. -/
inductive Key where
  | publishedDir
  | aggregateDir
  | config
  | verbose
  | quiet
  | dryRun
  | format
  | output
  | failOnSkip
  | initConfig
  | help
  | version
  deriving DecidableEq, Repr

namespace Key

def all : List Key :=
  [.publishedDir, .aggregateDir, .config, .verbose, .quiet, .dryRun, .format, .output, .failOnSkip,
    .initConfig, .help, .version]

def long : Key → String
  | .publishedDir => "published-dir"
  | .aggregateDir => "aggregate-dir"
  | .config => "config"
  | .verbose => "verbose"
  | .quiet => "quiet"
  | .dryRun => "dry-run"
  | .format => "format"
  | .output => "output"
  | .failOnSkip => "fail-on-skip"
  | .initConfig => "init-config"
  | .help => "help"
  | .version => "version"

def short? : Key → Option Char
  | .config => some 'c'
  | .verbose => some 'v'
  | .quiet => some 'q'
  | .output => some 'o'
  | .help => some 'h'
  | .version => some 'V'
  | _ => none

def takesValue : Key → Bool
  | .publishedDir | .aggregateDir | .config | .format | .output => true
  | _ => false

def ofLong? (name : Bytes) : Option Key := all.find? (Utf8.encode ·.long = name)

def ofShort? (letter : UInt8) : Option Key :=
  all.find? (·.short? = some (Char.ofNat letter.toNat))

end Key

/-- What is wrong with a command line. -/
inductive UsageError where
  | unknownArgument
  | invalidValue
  | repeatedArgument
  | unexpectedValue
  deriving DecidableEq, Repr

def UsageError.message : UsageError → String
  | .unknownArgument => "unexpected argument"
  | .invalidValue => "a value is missing or invalid"
  | .repeatedArgument => "an argument cannot be used multiple times"
  | .unexpectedValue => "a value was given to an argument that takes none"

/-- What a command line asks for. -/
inductive Request where
  | run (arguments : Arguments)
  | help
  | version
  deriving DecidableEq, Repr

/-- Reading ends early on an error or a request for help or the version. -/
inductive Stop where
  | usage (error : UsageError)
  | help
  | version
  deriving DecidableEq, Repr

/-- What has been read so far. -/
structure State where
  arguments : Arguments
  seen : List Key
  /-- An option that is not settled, with its value if that has come. -/
  pending? : Option (Key × Option Bytes)
  deriving Repr

/-- The path that a value names; the empty value names none. -/
def pathOf (value : Bytes) : Except Stop (Option Path) :=
  if value.isEmpty then .error (.usage .invalidValue) else .ok (some value)

/-- Enter the value of an option, or a flag, whose value does not matter. -/
def enter (a : Arguments) (key : Key) (value : Bytes) : Except Stop Arguments :=
  match key with
  | .publishedDir => do return { a with published? := ← pathOf value }
  | .aggregateDir => do return { a with aggregate? := ← pathOf value }
  | .config => do return { a with config? := ← pathOf value }
  | .output => do return { a with output? := ← pathOf value }
  | .format =>
    match (Utf8.decode? value).bind ReportFormat.ofName? with
    | some format => .ok { a with format? := some format }
    | none => .error (.usage .invalidValue)
  | .verbose => .ok { a with verbose := true }
  | .quiet => .ok { a with quiet := true }
  | .dryRun => .ok { a with dryRun := true }
  | .failOnSkip => .ok { a with failOnSkip := true }
  | .initConfig => .ok { a with initConfig := true }
  | .help => .error .help
  | .version => .error .version

/-- Settle a name with the value it was given. -/
def settle (s : State) (key : Key) (value? : Option Bytes) : Except Stop State :=
  if key.takesValue && value?.isNone then .error (.usage .invalidValue)
  else if key ∈ s.seen then .error (.usage .repeatedArgument)
  else do
    let arguments ← enter s.arguments key (value?.getD [])
    return { s with arguments, seen := key :: s.seen }

/-- Settle the option that waits. -/
def settlePending (s : State) : Except Stop State :=
  match s.pending? with
  | some (key, value?) => settle { s with pending? := none } key value?
  | none => .ok s

/-- Settle a flag, or an option whose value comes with it. -/
def take (s : State) (key : Key) (value? : Option Bytes) : Except Stop State := do
  settle (← settlePending s) key value?

/-- Let an option wait for its value. -/
def await (s : State) (key : Key) : Except Stop State := do
  return { ← settlePending s with pending? := some (key, none) }

def hyphen : UInt8 := 0x2D

def equals : UInt8 := 0x3D

/-- What stands behind an equals sign, if there is one. -/
def attached? (rest : Bytes) : Option Bytes :=
  if rest.head? = some equals then some rest.tail else none

/-- An argument behind its two hyphens. -/
def readLong (s : State) (argument : Bytes) : Except Stop State :=
  let name := argument.takeWhile (· != equals)
  let value? := attached? (argument.drop name.length)
  match Key.ofLong? name with
  | none => .error (.usage .unknownArgument)
  | some key =>
    match key.takesValue, value? with
    | true, some value => take s key (some value)
    | true, none => await s key
    | false, none => take s key none
    | false, some _ => .error (.usage .unexpectedValue)

/-- Letters behind one hyphen. -/
def readShort (s : State) : Bytes → Except Stop State
  | [] => .ok s
  | letter :: rest =>
    match Key.ofShort? letter with
    | none => .error (.usage .unknownArgument)
    | some key =>
      if !key.takesValue then do readShort (← take s key none) rest
      else if rest.isEmpty then await s key
      else take s key (some ((attached? rest).getD rest))

/-- An argument that is no name: the value that an option waits for. -/
def readValue (s : State) (argument : Bytes) : Except Stop State :=
  match s.pending? with
  | some (key, none) => .ok { s with pending? := some (key, some argument) }
  | _ => .error (.usage .unknownArgument)

/-- Read arguments in order; two hyphens alone end the names, and nothing may
follow them. -/
def readAll (s : State) : List Bytes → Except Stop State
  | [] => settlePending s
  | argument :: rest =>
    if argument = [hyphen, hyphen] then
      if rest.isEmpty then settlePending s else .error (.usage .unknownArgument)
    else if argument.take 2 = [hyphen, hyphen] then do readAll (← readLong s (argument.drop 2)) rest
    else if argument.head? = some hyphen && argument != [hyphen] then do
      readAll (← readShort s argument.tail) rest
    else do readAll (← readValue s argument) rest

/-- What a command line asks for. -/
def parse (arguments : List Bytes) : Except UsageError Request :=
  match readAll ⟨.none, [], none⟩ arguments with
  | .ok s => .ok (.run s.arguments)
  | .error .help => .ok .help
  | .error .version => .ok .version
  | .error (.usage error) => .error error

end CommandLine
end Rollup
