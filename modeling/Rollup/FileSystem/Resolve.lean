/-
# Looking paths up

A path is walked step by step from the root or the working directory.  Every step
but the last has to lead to a directory, and so has the last one before a slash
at the end.  A link is replaced by the steps of its target, at most 40 times in
one walk.  What can go wrong is reported where it is met:

| met | fault |
| --- | --- |
| an empty path, or a name that does not exist on the way | `noEntry` |
| a file where a directory is needed | `notDirectory` |
| a name of more than 255 bytes, or a path of 4096 or more | `nameTooLong` |
| a link beyond the fortieth | `tooManyLinks` |
| a file to be created whose name ends in a slash | `isDirectory` |
| a NUL in the path | `nulInPath` |
-/

import Rollup.FileSystem.Tree

namespace Rollup
namespace FileSystem

/-- Where a path leads. -/
inductive Place where
  | present (location : Location) (entry : Entry)
  /-- No such name, in a directory that exists. -/
  | vacant (directory : Location) (name : Bytes)
  deriving DecidableEq, Repr

/-- What a path is looked up for. -/
inductive Purpose where
  | find
  | create
  deriving DecidableEq, Repr

/-- The greatest length of a name. -/
def nameLimit : Nat := 255

/-- The length from which on a path is too long. -/
def pathLimit : Nat := 4096

/-- The number of links that one walk may follow. -/
def linkLimit : Nat := 40

/-- What is left of a walk: the directory reached, the steps to go, and whether a
slash ends them. -/
structure Walk where
  directory : Location
  steps : List Bytes
  slash : Bool
  deriving DecidableEq, Repr

/-- The walk of a path that is written in a directory. -/
def Walk.ofPath (directory : Location) (p : Path) : Walk where
  directory := if Path.isAbsolute p then [] else directory
  steps := Path.steps p
  slash := Path.endsInSlash p

/-- Go on with `rest` behind the target of a link. -/
def Walk.followedBy (w : Walk) (rest : List Bytes) (slash : Bool) : Walk where
  directory := w.directory
  steps := w.steps ++ rest
  slash := if rest.isEmpty then w.slash || slash else slash

/-- Walk up to the end or up to the first link, which `follow` goes on from. -/
def walkSteps (fs : FileSystem) (purpose : Purpose) (follow : Walk → Except Fault Place)
    (slash : Bool) : Location → List Bytes → Except Fault Place
  | directory, [] => .ok (.present directory .directory)
  | directory, step :: rest =>
    if step = Path.dot then walkSteps fs purpose follow slash directory rest
    else if step = Path.dotDot then walkSteps fs purpose follow slash directory.dropLast rest
    else if rest.isEmpty && slash && purpose = .create then .error (.system .isDirectory)
    else if nameLimit < step.length then .error (.system .nameTooLong)
    else match fs.entryAt? (directory ++ [step]) with
      | none =>
        if rest.isEmpty && !slash then .ok (.vacant directory step) else .error (.system .noEntry)
      | some .directory => walkSteps fs purpose follow slash (directory ++ [step]) rest
      | some (.link target) => follow ((Walk.ofPath directory target).followedBy rest slash)
      | some entry =>
        if rest.isEmpty && !slash then .ok (.present (directory ++ [step]) entry)
        else .error (.system .notDirectory)

/-- Walk to the end, following at most so many links. -/
def walk (fs : FileSystem) (purpose : Purpose) : Nat → Walk → Except Fault Place
  | 0, w => walkSteps fs purpose (fun _ => .error (.system .tooManyLinks)) w.slash w.directory w.steps
  | links + 1, w => walkSteps fs purpose (walk fs purpose links) w.slash w.directory w.steps

/-- Refuse a path that no system call accepts. -/
def checkPath (p : Path) : Except Fault Unit :=
  if p.contains 0 then .error .nulInPath
  else if p.isEmpty then .error (.system .noEntry)
  else if pathLimit ≤ p.length then .error (.system .nameTooLong)
  else .ok ()

/-- Where a path leads, links followed. -/
def locate (fs : FileSystem) (purpose : Purpose) (p : Path) : Except Fault Place := do
  checkPath p
  walk fs purpose linkLimit (.ofPath fs.workingDirectory p)

/-- The entry that a path leads to and its location. -/
def find (fs : FileSystem) (p : Path) : Except Fault (Location × Entry) := do
  match ← fs.locate .find p with
  | .present location entry => return (location, entry)
  | .vacant .. => .error (.system .noEntry)

/-- A name in a directory, as it is written at the end of a path; links there are
not followed. -/
structure LastStep where
  directory : Location
  /-- None for a root and for dots. -/
  name? : Option Bytes
  slash : Bool
  deriving DecidableEq, Repr

/-- The directory and the name that a path ends in. -/
def lastStep (fs : FileSystem) (p : Path) : Except Fault LastStep := do
  checkPath p
  let w := Walk.ofPath fs.workingDirectory p
  match w.steps.getLast? with
  | none => return ⟨w.directory, none, w.slash⟩
  | some name =>
    match ← walk fs .find linkLimit { w with steps := w.steps.dropLast, slash := true } with
    | .present directory .directory =>
      if name = Path.dot || name = Path.dotDot then return ⟨directory, none, w.slash⟩
      else if nameLimit < name.length then .error (.system .nameTooLong)
      else return ⟨directory, some name, w.slash⟩
    | _ => .error (.system .notDirectory)

end FileSystem
end Rollup
