/-
# A tree of files

A file system is a map from locations to entries.  A location is the list of
names from the root down to the entry; the root itself is always a directory.
Links hold the path they lead to and are followed only when a path is looked up.
Relative paths are looked up from the working directory.

Behind a device is no content of the tree but something else, and it is known by
what it gives and takes (`Device`): nothing is read from `/dev/null`, which takes
everything, and `/dev/full` takes nothing.  A socket gives and takes nothing.
-/

import Rollup.FileSystem.Path

namespace Rollup

/-- The names from the root down to an entry. -/
abbrev Location := List Bytes

/-- What passes one way through a device. -/
inductive Channel where
  | carries (content : Bytes)
  | fails (error : SystemError)
  deriving DecidableEq, Repr

/-- A device, or a pipe with a process at its other end.  Reading one comes to an
end, and it gives the same whenever it is read. -/
structure Device where
  /-- What is read from it. -/
  input : Channel
  /-- What has been written to it. -/
  output : Channel
  deriving DecidableEq, Repr

namespace Device

def read (d : Device) : Except Fault Bytes :=
  match d.input with
  | .carries content => .ok content
  | .fails error => .error (.system error)

/-- The device after a content was written to it. -/
def write (d : Device) (content : Bytes) : Except Fault Device :=
  match d.output with
  | .carries before => .ok { d with output := .carries (before ++ content) }
  | .fails error => .error (.system error)

end Device

inductive Entry where
  | directory
  | file (content : Bytes)
  /-- A symbolic link. -/
  | link (target : Path)
  /-- A socket, which cannot be opened by its path. -/
  | socket
  | device (device : Device)
  deriving DecidableEq, Repr

structure FileSystem where
  entries : Std.TreeMap Location Entry
  workingDirectory : Location

namespace FileSystem

/-- The entry at a location. -/
def entryAt? (fs : FileSystem) (location : Location) : Option Entry :=
  if location = [] then some .directory else fs.entries[location]?

def insert (fs : FileSystem) (location : Location) (entry : Entry) : FileSystem :=
  { fs with entries := fs.entries.insert location entry }

def erase (fs : FileSystem) (location : Location) : FileSystem :=
  { fs with entries := fs.entries.erase location }

theorem entryAt?_insert (fs : FileSystem) (l k : Location) (e : Entry) (h : l ≠ []) :
    (fs.insert l e).entryAt? k = if l = k then some e else fs.entryAt? k := by
  by_cases hk : k = []
  · subst hk
    simp [entryAt?, h]
  · by_cases hl : l = k <;> simp [entryAt?, insert, hk, hl, Std.TreeMap.getElem?_insert]

theorem entryAt?_erase (fs : FileSystem) (l k : Location) (h : l ≠ []) :
    (fs.erase l).entryAt? k = if l = k then none else fs.entryAt? k := by
  by_cases hk : k = []
  · subst hk
    simp [entryAt?, h]
  · by_cases hl : l = k <;> simp [entryAt?, erase, hk, hl, Std.TreeMap.getElem?_erase]

/-- The names in a directory, in the order of their bytes. -/
def children (fs : FileSystem) (directory : Location) : List Bytes :=
  fs.entries.keys.filterMap fun location =>
    if location.dropLast = directory then location.getLast? else none

/-- The text of an absolute path to a location. -/
def absolutePath (location : Location) : Path :=
  location.flatMap fun name => Path.slash :: name

end FileSystem
end Rollup
