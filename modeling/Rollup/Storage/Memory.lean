/-
# A storage in memory

Contents are kept as texts, so that malformed ones can be held too.  Single groups
can be read-only and single files locked.
-/

import Rollup.RowFormat.Parse
import Rollup.RowFormat.Render
import Rollup.Storage.Basic

namespace Rollup

structure MemoryStore where
  /-- The texts of published files by name. -/
  published : Std.TreeMap String String Utf8.compareText
  /-- The texts of aggregates by group. -/
  aggregates : Std.TreeMap GroupName String GroupName.compare
  unusable : List Unusable
  /-- Groups that cannot be saved. -/
  readOnly : List GroupName
  /-- Published files that cannot be removed. -/
  locked : List String

namespace MemoryStore

def empty : MemoryStore := ⟨∅, ∅, [], [], []⟩

def publish (s : MemoryStore) (name content : String) : MemoryStore :=
  { s with published := s.published.insert name content }

def putAggregate (s : MemoryStore) (group : GroupName) (content : String) : MemoryStore :=
  { s with aggregates := s.aggregates.insert group content }

def addUnusable (s : MemoryStore) (name reason : String) : MemoryStore :=
  { s with unusable := s.unusable ++ [⟨name, reason⟩] }

def setReadOnly (s : MemoryStore) (group : GroupName) : MemoryStore :=
  { s with readOnly := group :: s.readOnly }

def lock (s : MemoryStore) (name : String) : MemoryStore := { s with locked := name :: s.locked }

def publishedNames (s : MemoryStore) : List String := s.published.keys

/-- The record in a text that is kept under a name. -/
def decode (name content : String) : Except StorageError Record :=
  (RowFormat.parse content).mapError (.malformed (Path.ofString name))

def readPublished (s : MemoryStore) (name : String) : Except StorageError Record :=
  match s.published[name]? with
  | some content => decode name content
  | none => .error (.notFound (Path.ofString name))

def loadAggregate (s : MemoryStore) (group : GroupName) : Except StorageError (Option Record) :=
  match s.aggregates[group]? with
  | some content => (decode group.text content).map some
  | none => .ok none

def saveAggregate (s : MemoryStore) (group : GroupName) (r : Record) :
    Except StorageError Unit × MemoryStore :=
  if group ∈ s.readOnly then (.error (.io (Path.ofString group.text) .denied), s)
  else (.ok (), s.putAggregate group (RowFormat.render r))

def consume (s : MemoryStore) (name : String) : Except StorageError Unit × MemoryStore :=
  if name ∈ s.locked then (.error (.io (Path.ofString name) .denied), s)
  else if name ∈ s.published then (.ok (), { s with published := s.published.erase name })
  else (.error (.notFound (Path.ofString name)), s)

instance : Storage MemoryStore where
  locations _ := ⟨"memory:published", "memory:aggregate"⟩
  ensureReady _ := .ok ()
  listPending s := .ok ⟨s.publishedNames, s.unusable⟩
  readPublished := readPublished
  loadAggregate := loadAggregate
  saveAggregate := saveAggregate
  consume := consume
  listNotes _ := []
  loadNotes _ _ := []
  saveNotes _ _ := []

end MemoryStore
end Rollup
