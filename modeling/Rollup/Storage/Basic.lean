/-
# Where published files and aggregates are kept

A storage lists and reads published files, loads and saves the aggregates of
groups, and removes a published file that has been merged.  Reading changes
nothing; saving and consuming give the storage that results, also when they fail.
Bad content is told apart from a failing storage (`StorageError.isMalformed`):
the one is skipped, the other reported as a failure.
-/

import Rollup.FileSystem.Scan
import Rollup.GroupName
import Rollup.Log
import Rollup.RowFormat.Error

namespace Rollup

/-- Why a storage does not do what it is asked for. -/
inductive StorageError where
  | directoryMissing (path : Path)
  | notFound (path : Path)
  | malformed (path : Path) (error : RowFormat.FormatError)
  | io (path : Path) (fault : Fault)
  deriving DecidableEq, Repr

namespace StorageError

def message : StorageError → String
  | .directoryMissing path => "directory not found: " ++ Path.display path
  | .notFound path => "file not found: " ++ Path.display path
  | .malformed path error => "malformed file " ++ Path.display path ++ ": " ++ error.message
  | .io path fault => "I/O error on " ++ Path.display path ++ ": " ++ fault.message

/-- The content is at fault and not the storage. -/
def isMalformed : StorageError → Bool
  | .malformed .. => true
  | _ => false

end StorageError

/-- The published side at one moment. -/
structure Listing where
  /-- Names of the files to merge, in the order of their bytes. -/
  pending : List String
  unusable : List Unusable
  deriving DecidableEq, Repr

/-- Descriptions of where a storage keeps its data. -/
structure Locations where
  published : String
  aggregate : String
  deriving DecidableEq, Repr

/-- Published files and the aggregates of groups. -/
class Storage (σ : Type) where
  locations : σ → Locations
  /-- The storage can be used at all. -/
  ensureReady : σ → Except StorageError Unit
  listPending : σ → Except StorageError Listing
  readPublished : σ → String → Except StorageError Record
  /-- The aggregate of a group; none if there is none yet. -/
  loadAggregate : σ → GroupName → Except StorageError (Option Record)
  saveAggregate : σ → GroupName → Record → Except StorageError Unit × σ
  /-- Remove a published file. -/
  consume : σ → String → Except StorageError Unit × σ
  /-- What a listing, a load and a successful save put into the log. -/
  listNotes : σ → List Log.Entry
  loadNotes : σ → GroupName → List Log.Entry
  saveNotes : σ → GroupName → List Log.Entry

end Rollup
