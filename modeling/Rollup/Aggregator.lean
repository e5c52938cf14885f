/-
# Merging published files into the aggregates of their groups

A run takes the files that are published when it starts and merges them one by
one: the group's aggregate is loaded, the file's record is merged into it, the
result is saved and the file removed.  A file that is not merged is never
removed.  A dry run saves and removes nothing; it goes on from the aggregates
that it has staged itself.

What becomes of a file is an `Attempt`, which names the cause; the result in the
report and the line in the log follow from it.
-/

import Rollup.Record.Merge
import Rollup.Report.Basic
import Rollup.Storage.Basic

namespace Rollup

/-- What happens when a file is processed. -/
inductive Attempt where
  | unnamed (error : NameError)
  /-- The aggregate or the file cannot be read. -/
  | rejected (group : GroupName) (error : StorageError)
  | overflowed (group : GroupName) (error : MergeError)
  | planned (group : GroupName)
  | unsaved (group : GroupName) (error : StorageError)
  /-- Merged and saved, but the file is still there. -/
  | undeleted (group : GroupName) (error : StorageError)
  | merged (group : GroupName)
  deriving DecidableEq, Repr

namespace Attempt

def group? : Attempt → Option GroupName
  | .unnamed _ => none
  | .rejected g _ | .overflowed g _ | .planned g | .unsaved g _ | .undeleted g _ | .merged g => some g

def outcome : Attempt → Outcome
  | .unnamed e => .skipped e.message
  | .rejected _ e => if e.isMalformed then .skipped e.message else .failed e.message
  | .overflowed _ e => .skipped e.message
  | .planned _ => .planned
  | .unsaved _ e => .failed e.message
  | .undeleted _ e => .failed ("aggregate saved but file not deleted: " ++ e.message)
  | .merged _ => .merged

/-- The aggregate was written. -/
def isSaved : Attempt → Bool
  | .undeleted .. | .merged _ => true
  | _ => false

def result (file : String) (a : Attempt) : FileResult := ⟨file, a.group?, a.outcome⟩

/-- The line in the log. -/
def note (file : String) : Attempt → Log.Entry
  | .unnamed e => .warn ("Skipping " ++ file ++ ": " ++ e.message)
  | .rejected _ e =>
    if e.isMalformed then .warn ("Skipping " ++ file ++ ": " ++ e.message)
    else .error ("Failed to process " ++ file ++ ": " ++ e.message)
  | .overflowed _ e => .warn ("Skipping " ++ file ++ ": " ++ e.message)
  | .planned g => .debug ("Would merge " ++ file ++ " into " ++ g.text)
  | .unsaved g e =>
    .error ("Failed to save aggregate " ++ g.text ++ " for " ++ file ++ ": " ++ e.message)
  | .undeleted g e =>
    .error ("Merged " ++ file ++ " into " ++ g.text ++
      " but could not delete it; the next run will merge it again: " ++ e.message)
  | .merged g => .info ("Merged " ++ file ++ " into " ++ g.text)

end Attempt

/-- What a run knows of a group that it has merged files into. -/
structure Staged where
  files : Nat
  record : Record
  deriving DecidableEq, Repr

/-- A storage and the groups that have been worked on. -/
structure Aggregator (σ : Type) where
  storage : σ
  dryRun : Bool
  groups : Std.TreeMap GroupName Staged GroupName.compare

namespace Aggregator

variable {σ : Type} [Storage σ]

/-- An aggregator that has not worked on anything. -/
def new (storage : σ) (dryRun : Bool) : Aggregator σ := ⟨storage, dryRun, ∅⟩

/-- The staged record of a group, which stands for its aggregate in a dry run. -/
def staged? (a : Aggregator σ) (group : GroupName) : Option Record :=
  if a.dryRun then a.groups[group]?.map Staged.record else none

/-- The aggregate that a file is merged into. -/
def currentAggregate (a : Aggregator σ) (group : GroupName) : Except StorageError Record :=
  match a.staged? group with
  | some r => .ok r
  | none => (Storage.loadAggregate a.storage group).map (·.getD .empty)

/-- Count a further file of a group whose aggregate is now `r`. -/
def stage (a : Aggregator σ) (group : GroupName) (r : Record) : Aggregator σ :=
  let files := match a.groups[group]? with
    | some s => s.files
    | none => 0
  { a with groups := a.groups.insert group ⟨files + 1, r⟩ }

/-- Save the merged record of a file and remove the file. -/
def settle (a : Aggregator σ) (file : String) (group : GroupName) (r : Record) :
    Attempt × Aggregator σ :=
  if a.dryRun then (.planned group, a.stage group r)
  else match Storage.saveAggregate a.storage group r with
    | (.error e, storage) => (.unsaved group e, { a with storage })
    | (.ok (), storage) =>
      let a := { a with storage }.stage group r
      match Storage.consume a.storage file with
      | (.error e, storage) => (.undeleted group e, { a with storage })
      | (.ok (), storage) => (.merged group, { a with storage })

/-- Merge one published file into the aggregate of its group. -/
def attempt (a : Aggregator σ) (file : String) : Attempt × Aggregator σ :=
  match GroupName.ofFile file with
  | .error e => (.unnamed e, a)
  | .ok group =>
    match a.currentAggregate group with
    | .error e => (.rejected group e, a)
    | .ok existing =>
      match Storage.readPublished a.storage file with
      | .error e => (.rejected group e, a)
      | .ok incoming =>
        match existing.merge incoming with
        | .error e => (.overflowed group e, a)
        | .ok merged => a.settle file group merged

/-- The result of one file. -/
def process (a : Aggregator σ) (file : String) : FileResult × Aggregator σ :=
  ((a.attempt file).1.result file, (a.attempt file).2)

/-- The results of files that are processed in order. -/
def processAll (a : Aggregator σ) : List String → List FileResult × Aggregator σ
  | [] => ([], a)
  | file :: rest =>
    let (result, a) := a.process file
    let (results, a) := a.processAll rest
    (result :: results, a)

/-- The result of an entry that cannot be read as a published file. -/
def unusableResult (entry : Unusable) : FileResult where
  file := entry.name
  group? := (GroupName.ofFile entry.name).toOption
  outcome := .skipped entry.reason

/-- Results in the order of their file names. -/
def sortResults (results : List FileResult) : List FileResult :=
  results.mergeSort fun r s => (Utf8.compareText r.file s.file).isLE

/-- The summaries of the groups that have been worked on. -/
def summaries (a : Aggregator σ) : List GroupSummary :=
  a.groups.toList.map fun (group, s) => GroupSummary.ofRecord group s.files s.record

/-- Process all files that are published now.  Only a storage that cannot be used
at all fails the run; all else is part of the report. -/
def run (a : Aggregator σ) (runDate : Moment) (duration : Binary64) :
    Except StorageError Report × Aggregator σ :=
  match Storage.ensureReady a.storage with
  | .error e => (.error e, a)
  | .ok () =>
    let a := { a with groups := ∅ }
    match Storage.listPending a.storage with
    | .error e => (.error e, a)
    | .ok listing =>
      let (results, after) := a.processAll listing.pending
      let locations := Storage.locations after.storage
      let report := {
        metadata := {
          runDate, duration
          published := locations.published
          aggregate := locations.aggregate
          dryRun := a.dryRun }
        files := sortResults (listing.unusable.map unusableResult ++ results)
        groups := after.summaries }
      (.ok report, { after with groups := ∅ })

/-- The log of one file: what the storage notes, then what became of the file. -/
def fileLog (a : Aggregator σ) (file : String) : List Log.Entry :=
  let attempt := (a.attempt file).1
  let loading := match attempt.group? with
    | some group => if (a.staged? group).isSome then [] else Storage.loadNotes a.storage group
    | none => []
  let saving := match attempt.group? with
    | some group => if attempt.isSaved then Storage.saveNotes a.storage group else []
    | none => []
  loading ++ saving ++ [attempt.note file]

def filesLog (a : Aggregator σ) : List String → List Log.Entry
  | [] => []
  | file :: rest => a.fileLog file ++ (a.attempt file).2.filesLog rest

/-- The log of a run. -/
def runLog (a : Aggregator σ) : List Log.Entry :=
  match Storage.ensureReady a.storage, Storage.listPending a.storage with
  | .ok (), .ok listing =>
    Storage.listNotes a.storage ++
      .info ("Found " ++ Decimal.natText listing.pending.length ++ " published file(s)") ::
      { a with groups := ∅ }.filesLog listing.pending
  | _, _ => []

end Aggregator
end Rollup
