/-
# Operations on files

Reading and writing follow links; removing takes the name itself.  What is written
to a file takes the place of its content, and a device takes it behind what was
written before.  A failing operation leaves the tree as it was.
-/

import Rollup.FileSystem.Resolve

namespace Rollup
namespace FileSystem

/-- The path leads to something. -/
def exists? (fs : FileSystem) (p : Path) : Bool :=
  match fs.find p with
  | .ok _ => true
  | .error _ => false

def isDirectory (fs : FileSystem) (p : Path) : Bool :=
  match fs.find p with
  | .ok (_, .directory) => true
  | _ => false

/-- The content of a file, or what a device gives. -/
def read (fs : FileSystem) (p : Path) : Except Fault Bytes := do
  match ← fs.find p with
  | (_, .file content) => return content
  | (_, .device d) => d.read
  | (_, .directory) => .error (.system .isDirectory)
  | (_, .socket) => .error (.system .noDevice)
  | (_, .link _) => .error (.system .tooManyLinks)

/-- Put a content into a file, which is created if there is none, or give it to a
device. -/
def write (fs : FileSystem) (p : Path) (content : Bytes) : Except Fault FileSystem := do
  match ← fs.locate .create p with
  | .present location (.file _) => return fs.insert location (.file content)
  | .present location (.device d) => return fs.insert location (.device (← d.write content))
  | .vacant directory name => return fs.insert (directory ++ [name]) (.file content)
  | .present _ .directory => .error (.system .isDirectory)
  | .present _ .socket => .error (.system .noDevice)
  | .present _ (.link _) => .error (.system .tooManyLinks)

/-- Take away a name that is no directory. -/
def remove (fs : FileSystem) (p : Path) : Except Fault FileSystem := do
  let last ← fs.lastStep p
  let some name := last.name? | .error (.system .isDirectory)
  let location := last.directory ++ [name]
  match fs.entryAt? location with
  | none => .error (.system .noEntry)
  | some .directory => .error (.system .isDirectory)
  | some _ => if last.slash then .error (.system .notDirectory) else return fs.erase location

end FileSystem
end Rollup
