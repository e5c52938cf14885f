/-
# Scanning a directory for published files

Only regular files directly inside the directory count, and links are followed.
Hidden names, which start with a dot, and directories are passed over.  Whatever
else can never be read as a published file is listed as unusable with a reason:
links that lead nowhere or back to the directory itself, names that are not
UTF-8, and entries that are no regular files.  Names come in the order of their
bytes.
-/

import Rollup.FileSystem.Operations

namespace Rollup

/-- A published file found by a scan. -/
structure PendingFile where
  name : String
  path : Path
  size : Nat
  deriving DecidableEq, Repr

/-- An entry that can never be read as a published file. -/
structure Unusable where
  /-- The name as shown, where it is not UTF-8. -/
  name : String
  reason : String
  deriving DecidableEq, Repr

namespace Scan

/-- What an entry of the scanned directory turns out to be. -/
inductive Finding where
  | pending (file : PendingFile)
  | hidden (name : String)
  /-- A hidden link that cannot be followed. -/
  | hiddenUnreadable
  | directory (name : String)
  /-- A link that cannot be followed. -/
  | unreadable (name : String) (reason : String)
  | notText (path : Path) (name : String)
  | irregular (name : String)
  deriving DecidableEq, Repr

def isHidden (name : Bytes) : Bool := name.head? == some 0x2E

/-- The entry behind a name in the directory `location`, which was reached by the
path `root`; for a link the one that it leads to, or the reason why there is none. -/
def target (fs : FileSystem) (root : Path) (location : Location) (name : Bytes) :
    Except String Entry :=
  let path := Path.join root name
  match fs.entryAt? (location ++ [name]) with
  | some (.link _) =>
    match fs.find path with
    | .error fault =>
      .error ("IO error for operation on " ++ Path.display path ++ ": " ++ fault.message)
    | .ok (found, entry) =>
      if found = location then
        .error ("File system loop found: " ++ Path.display path ++ " points to an ancestor " ++
          Path.display root)
      else .ok entry
  | some entry => .ok entry
  | none => .ok .socket

/-- The number of bytes that can be read from a path. -/
def sizeOf (fs : FileSystem) (p : Path) : Nat :=
  match fs.read p with
  | .ok content => content.length
  | .error _ => 0

/-- What the scan makes of a name. -/
def inspect (fs : FileSystem) (root : Path) (location : Location) (name : Bytes) : Finding :=
  let path := Path.join root name
  let shown := Utf8.display name
  match target fs root location name with
  | .error reason => if isHidden name then .hiddenUnreadable else .unreadable shown reason
  | .ok entry =>
    if isHidden name then .hidden shown
    else match entry with
      | .directory => .directory shown
      | .file _ | .link _ | .socket | .device _ =>
        match Utf8.decode? name with
        | none => .notText path shown
        | some text => match entry with
          | .file _ => .pending ⟨text, path, sizeOf fs path⟩
          | _ => .irregular text

def Finding.pending? : Finding → Option PendingFile
  | .pending file => some file
  | _ => none

def Finding.unusable? : Finding → Option Unusable
  | .unreadable name reason => some ⟨name, reason⟩
  | .notText _ name => some ⟨name, "file name is not valid UTF-8"⟩
  | .irregular name => some ⟨name, "not a regular file"⟩
  | .pending _ | .hidden _ | .hiddenUnreadable | .directory _ => none

end Scan

/-- The outcome of a scan. -/
structure ScanResult where
  files : List PendingFile
  unusable : List Unusable
  deriving DecidableEq, Repr

namespace FileSystem

/-- What a scan finds under a path, name by name; nothing unless it leads to a
directory. -/
def findings? (fs : FileSystem) (root : Path) : Option (List Scan.Finding) :=
  match fs.find root with
  | .ok (location, .directory) => some ((fs.children location).map (Scan.inspect fs root location))
  | _ => none

/-- The published files and the unusable entries of a directory. -/
def scan? (fs : FileSystem) (root : Path) : Option ScanResult :=
  (fs.findings? root).map fun findings => {
    files := findings.filterMap Scan.Finding.pending?
    unusable := findings.filterMap Scan.Finding.unusable? }

end FileSystem
end Rollup
