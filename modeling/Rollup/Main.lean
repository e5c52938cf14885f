/-
# The program on a real file system

`Program.execute` is a function of a tree of files.  Here the part of the file
system that a command line can reach is read into such a tree, the function is
applied, and the differences are carried out: new contents first, each moved into
place in one step, then removals.  Everything else happens in `Program`.

Devices and pipes are opened only where a configuration is read from one or the
report is to be written to one; all others stand in the tree as sockets.
-/

import Rollup.Program
import Std.Time.DateTime.Timestamp

namespace Rollup
namespace Main

def pathText (location : Location) : String :=
  if location.isEmpty then "/" else Path.display (FileSystem.absolutePath location)

def locationOf (absolute : String) : Location := Path.steps (Path.ofString absolute)

/-- The place that a path leads to, if there is one. -/
def resolve? (path : String) : IO (Option Location) := do
  try return some (locationOf (← IO.FS.realPath path).toString)
  catch _ => return none

/-- A target that no link can reach. -/
def nowhere : Path := [Path.slash, 0]

/-- The link at a location leads to something that is neither a file nor a directory. -/
def leadsToOther (location : Location) : IO Bool := do
  let path := (← IO.currentDir) / pathText location
  try
    match (← path.metadata).type with
    | .other => return true
    | _ => return false
  catch _ => return false

/-- Enter a socket, unless a device is known there. -/
def insertSocket (fs : FileSystem) (location : Location) : FileSystem :=
  match fs.entryAt? location with
  | some (.device _) => fs
  | _ => fs.insert location .socket

/-- Read the entry at a location.  A link is read as one to the place where it
leads in the end. -/
def readEntry (fs : FileSystem) (location : Location) : IO FileSystem := do
  let path := (← IO.currentDir) / pathText location
  try
    match (← path.symlinkMetadata).type with
    | .dir => return fs.insert location .directory
    | .file => return fs.insert location (.file (← IO.FS.readBinFile path).data.toList)
    | .symlink =>
      match ← resolve? (pathText location) with
      | some place => return fs.insert location (.link (FileSystem.absolutePath place))
      | none =>
        -- The link to an open pipe leads to no place of the tree.
        if ← leadsToOther location then return insertSocket fs location
        else return fs.insert location (.link nowhere)
    | .other => return insertSocket fs location
  catch _ => return fs

/-- Read an entry and the directories above it. -/
def readChain (fs : FileSystem) (location : Location) : IO FileSystem :=
  (List.range' 1 location.length).foldlM (fun fs n => readEntry fs (location.take n)) fs

/-- Read an entry and, for a link, what it leads to. -/
def readThrough (fs : FileSystem) (location : Location) : IO FileSystem := do
  let fs ← readEntry fs location
  match ← resolve? (pathText location) with
  | some place => readChain fs place
  | none => return fs

/-- Read what a path passes through. -/
def readPath (fs : FileSystem) (path : Path) : IO FileSystem := do
  let start := if Path.isAbsolute path then "/" else "./"
  let steps := Path.steps path
  (List.range steps.length).foldlM (fun fs n => do
    match ← resolve? (start ++ Path.display (Path.joinPieces (steps.take n))) with
    | some place => readThrough (← readChain fs place) (place ++ (steps.drop n).take 1)
    | none => return fs) fs

/-- Read what a path passes through and, for a directory, what it holds. -/
def readDirectory (fs : FileSystem) (path : Path) : IO FileSystem := do
  let fs ← readPath fs path
  match ← resolve? (Path.display path) with
  | none => return fs
  | some place =>
    let fs ← readChain fs place
    try
      let children ← ((← IO.currentDir) / pathText place).readDir
      children.foldlM (fun fs child => readThrough fs (place ++ [Utf8.encode child.fileName])) fs
    catch _ => return fs

/-- What a failure comes to that is met where no file is. -/
def deviceError : IO.Error → SystemError
  | .hardwareFault .. => .inputOutput
  | .resourceExhausted .. => .noSpace
  | _ => .noDevice

/-- Read what the device gives that a path leads to, if it leads to one. -/
def readDevice (fs : FileSystem) (path : Path) : IO FileSystem := do
  match fs.find path with
  | .ok (location, .socket) =>
    let input : Channel ← try
        pure (.carries (← IO.FS.readBinFile (Path.display path)).data.toList)
      catch error => pure (.fails (deviceError error))
    return fs.insert location (.device ⟨input, .fails .noDevice⟩)
  | _ => return fs

/-- Open the device for writing that a path leads to, if it leads to one. -/
def openDevice (fs : FileSystem) (path : Path) : IO (FileSystem × Option IO.FS.Handle) := do
  let opened (location : Location) (input : Channel) := do
    try
      let handle ← IO.FS.Handle.mk (Path.display path) .write
      return (fs.insert location (.device ⟨input, .carries []⟩), some handle)
    catch error =>
      return (fs.insert location (.device ⟨input, .fails (deviceError error)⟩), none)
  match fs.find path with
  | .ok (location, .socket) => opened location (.fails .noDevice)
  | .ok (location, .device d) => opened location d.input
  | _ => return (fs, none)

/-- Read all that a run with the given arguments can reach, and open the device
that its report goes to. -/
def readFiles (arguments : List Bytes) : IO (FileSystem × Option IO.FS.Handle) := do
  let home := locationOf (← IO.currentDir).toString
  let fs ← readChain ⟨∅, home⟩ home
  match CommandLine.parse arguments with
  | .ok (.run a) =>
    let path := a.config?.getD (Path.ofString Config.fileName)
    let fs ← readDevice (← readPath fs path) path
    let config := match Program.loadConfig fs a with
      | .ok (config, _) => config
      | .error _ => Config.default
    let config := config.withArguments a
    let fs ← readDirectory (← readDirectory fs config.published) config.aggregate
    match config.output? with
    | some path => openDevice (← readPath fs path) path
    | none => return (fs, none)
  | _ => return (fs, none)

/-- Put a content in place in one step. -/
def replaceFile (fs : FileSystem) (location : Location) (content : Bytes) : IO Unit := do
  let directory := location.dropLast
  let name := (Replacement.freshName? fs directory).getD (Replacement.temporaryName 0)
  let temporary := pathText (directory ++ [name])
  IO.FS.writeBinFile temporary ⟨content.toArray⟩
  IO.FS.rename temporary (pathText location)

/-- Carry out the differences between two trees; what a device has taken is written
to it. -/
def carryOut (before after : FileSystem) (device? : Option IO.FS.Handle) : IO Unit := do
  for (location, entry) in after.entries.toList do
    if before.entryAt? location != some entry then
      match entry, device? with
      | .file content, _ => replaceFile after location content
      | .device ⟨_, .carries taken⟩, some handle =>
        handle.write ⟨taken.toArray⟩
        handle.flush
      | _, _ => pure ()
  for (location, _) in before.entries.toList do
    if (after.entryAt? location).isNone then
      IO.FS.removeFile (pathText location)

end Main
end Rollup

def main (arguments : List String) : IO UInt32 := do
  let arguments := arguments.map Rollup.Utf8.encode
  let started ← IO.monoMsNow
  let now ← Std.Time.Timestamp.now
  let (files, device?) ← Rollup.Main.readFiles arguments
  let elapsed := (← IO.monoMsNow) - started
  let runDate : Rollup.Moment := ⟨now.toSecondsSinceUnixEpoch.val, 0⟩
  let duration := Rollup.Decimal.toBinary64 false elapsed (-3)
  let result := Rollup.Program.execute files arguments ⟨runDate, duration⟩
  try Rollup.Main.carryOut files result.files device?
  catch error =>
    IO.eprintln error
    return 1
  for line in result.stderr do
    IO.eprintln line
  IO.print result.stdout
  return result.exit.toUInt32
