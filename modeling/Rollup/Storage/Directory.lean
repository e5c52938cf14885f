/-
# A storage in two directories

Published files lie in one directory and aggregates in another, each under the
name of its group.  An aggregate is replaced in one step (`Replacement`), so that
a reader never sees half of one.
-/

import Rollup.FileSystem.Replacement
import Rollup.RowFormat.Parse
import Rollup.RowFormat.Render
import Rollup.Storage.Basic

namespace Rollup

structure DirectoryStore where
  files : FileSystem
  published : Path
  aggregate : Path

namespace DirectoryStore

def publishedPath (s : DirectoryStore) (name : String) : Path :=
  Path.join s.published (Path.ofString name)

def aggregatePath (s : DirectoryStore) (group : GroupName) : Path :=
  Path.join s.aggregate (Path.ofString group.text)

def ensureReady (s : DirectoryStore) : Except StorageError Unit :=
  if !s.files.isDirectory s.published then .error (.directoryMissing s.published)
  else if !s.files.isDirectory s.aggregate then .error (.directoryMissing s.aggregate)
  else .ok ()

def listPending (s : DirectoryStore) : Except StorageError Listing :=
  match s.files.scan? s.published with
  | some scan => .ok ⟨scan.files.map PendingFile.name, scan.unusable⟩
  | none => .error (.directoryMissing s.published)

/-- The record in a file. -/
def readRecord (files : FileSystem) (path : Path) : Except StorageError Record :=
  match files.read path with
  | .ok content => (RowFormat.parseBytes content).mapError (.malformed path)
  | .error (.system .noEntry) => .error (.notFound path)
  | .error fault => .error (.io path fault)

def readPublished (s : DirectoryStore) (name : String) : Except StorageError Record :=
  readRecord s.files (s.publishedPath name)

def loadAggregate (s : DirectoryStore) (group : GroupName) : Except StorageError (Option Record) :=
  match readRecord s.files (s.aggregatePath group) with
  | .ok r => .ok (some r)
  | .error (.notFound _) => .ok none
  | .error e => .error e

/-- Replace a file by the given content in one step. -/
def replace (files : FileSystem) (path : Path) (content : Bytes) : Except StorageError Unit × FileSystem :=
  match Replacement.start files path with
  | .error (place, fault) => (.error (.io place fault), files)
  | .ok (files, replacement) =>
    let (result, files) := replacement.finish (replacement.write files content)
    (result.mapError (.io path), files)

def saveAggregate (s : DirectoryStore) (group : GroupName) (r : Record) :
    Except StorageError Unit × DirectoryStore :=
  let (result, files) := replace s.files (s.aggregatePath group) (Utf8.encode (RowFormat.render r))
  (result, { s with files })

def consume (s : DirectoryStore) (name : String) : Except StorageError Unit × DirectoryStore :=
  let path := s.publishedPath name
  match s.files.remove path with
  | .ok files => (.ok (), { s with files })
  | .error fault => (.error (.io path fault), s)

/-- The log of a scan, entry by entry. -/
def findingNotes : Scan.Finding → List Log.Entry
  | .pending _ | .hiddenUnreadable => []
  | .hidden name => [.debug ("Skipping hidden file " ++ name)]
  | .directory name => [.debug ("Skipping directory " ++ name)]
  | .unreadable name reason => [.warn ("Cannot read " ++ name ++ ": " ++ reason)]
  | .notText path _ => [.warn ("Skipping non UTF-8 file name: " ++ Path.display path)]
  | .irregular name => [.warn ("Skipping " ++ name ++ ": not a regular file")]

def pendingNote (f : PendingFile) : Log.Entry :=
  .debug ("Pending " ++ Path.display f.path ++ " (" ++ Decimal.natText f.size ++ " bytes)")

def listNotes (s : DirectoryStore) : List Log.Entry :=
  let findings := (s.files.findings? s.published).getD []
  findings.flatMap findingNotes ++ (findings.filterMap Scan.Finding.pending?).map pendingNote

def loadNotes (s : DirectoryStore) (group : GroupName) : List Log.Entry :=
  match s.loadAggregate group with
  | .ok none => [.debug ("No aggregate at " ++ Path.display (s.aggregatePath group) ++ ", starting empty")]
  | _ => []

instance : Storage DirectoryStore where
  locations s := ⟨Path.display s.published, Path.display s.aggregate⟩
  ensureReady := ensureReady
  listPending := listPending
  readPublished := readPublished
  loadAggregate := loadAggregate
  saveAggregate := saveAggregate
  consume := consume
  listNotes := listNotes
  loadNotes := loadNotes
  saveNotes s group := [.debug ("Wrote aggregate " ++ Path.display (s.aggregatePath group))]

end DirectoryStore
end Rollup
