/-
# Replacing a file in one step

The new content is gathered in a temporary file beside the target and moved over
it at the end, so that the target holds either its old content or all of the new
one.  A replacement that is given up, or whose last step fails, takes its
temporary file away again.  The name of the target itself is replaced, even where
it is a link.
-/

import Rollup.FileSystem.Operations

namespace Rollup

/-- A replacement under way. -/
structure Replacement where
  target : Path
  /-- Where the content is gathered. -/
  temporary : Location
  deriving DecidableEq, Repr

namespace Replacement

/-- The directory that holds the target, as a path. -/
def directoryOf? (target : Path) : Option Path :=
  (Path.parent? target).map fun parent => if parent.isEmpty then Path.dot else parent

/-- Names for temporary files: hidden ones with at least six digits at the end. -/
def temporaryName (n : Nat) : Bytes :=
  let digits := Decimal.writeNat n
  Utf8.encode (".tmp" ++ String.ofList (List.replicate (6 - digits.length) '0' ++ digits))

/-- The first temporary name that a directory does not hold yet. -/
def freshName? (fs : FileSystem) (directory : Location) : Option Bytes :=
  ((List.range (fs.entries.size + 1)).map temporaryName).find? fun name =>
    (fs.entryAt? (directory ++ [name])).isNone

/-- Create the temporary file for a target. -/
def start (fs : FileSystem) (target : Path) : Except (Path × Fault) (FileSystem × Replacement) := do
  let some parent := directoryOf? target | .error (target, .noParent)
  let absolute := Path.join (FileSystem.absolutePath fs.workingDirectory) parent
  let fault (name : Bytes) (f : Fault) := (parent, Fault.temporary f (Path.join absolute name))
  let inside := Path.join absolute (temporaryName 0)
  let last ← (fs.lastStep inside).mapError (fault (temporaryName 0))
  let some name := freshName? fs last.directory
    | .error (fault (temporaryName 0) (.system .fileExists))
  let temporary := last.directory ++ [name]
  return (fs.insert temporary (.file []), { target, temporary })

/-- Append to the content gathered so far. -/
def write (fs : FileSystem) (r : Replacement) (content : Bytes) : FileSystem :=
  match fs.entryAt? r.temporary with
  | some (.file before) => fs.insert r.temporary (.file (before ++ content))
  | _ => fs

/-- Give the replacement up. -/
def discard (fs : FileSystem) (r : Replacement) : FileSystem := fs.erase r.temporary

/-- Where the target's name stands, if a file may take its place. -/
def destination (fs : FileSystem) (target : Path) : Except Fault Location := do
  if target.contains 0 then .error (.system .invalid)
  let last ← fs.lastStep target
  let some name := last.name? | .error (.system .busy)
  let location := last.directory ++ [name]
  if last.slash then .error (.system .notDirectory)
  else if fs.entryAt? location = some .directory then .error (.system .isDirectory)
  else return location

/-- Move the temporary file over the target. -/
def finish (fs : FileSystem) (r : Replacement) : Except Fault Unit × FileSystem :=
  match destination fs r.target, fs.entryAt? r.temporary with
  | .ok location, some entry => (.ok (), (fs.erase r.temporary).insert location entry)
  | .ok _, none => (.error (.system .noEntry), fs)
  | .error fault, _ => (.error fault, r.discard fs)

end Replacement
end Rollup
