/-
# The report of a run

A report lists what became of each published file and, for each group that files
were merged into, the state of its aggregate afterwards.  All counts follow from
the list of files.
-/

import Rollup.Calendar
import Rollup.GroupName
import Rollup.Record.Basic

namespace Rollup

/-- What became of a published file. -/
inductive Outcome where
  /-- Merged into its aggregate and removed. -/
  | merged
  /-- To be merged by a run that is not dry. -/
  | planned
  /-- Left in place for a later run. -/
  | skipped (reason : String)
  /-- Not processed, because the storage failed. -/
  | failed (reason : String)
  deriving DecidableEq, Repr

namespace Outcome

def status : Outcome → String
  | .merged => "merged"
  | .planned => "planned"
  | .skipped _ => "skipped"
  | .failed _ => "failed"

def reason? : Outcome → Option String
  | .skipped reason | .failed reason => some reason
  | .merged | .planned => none

def isMerged : Outcome → Bool
  | .merged => true
  | _ => false

def isPlanned : Outcome → Bool
  | .planned => true
  | _ => false

def isSkipped : Outcome → Bool
  | .skipped _ => true
  | _ => false

def isFailed : Outcome → Bool
  | .failed _ => true
  | _ => false

end Outcome

/-- The outcome of one file; a group only if its name yields one. -/
structure FileResult where
  file : String
  group? : Option GroupName
  outcome : Outcome
  deriving DecidableEq, Repr

/-- The aggregate of a group after a run. -/
structure GroupSummary where
  group : GroupName
  /-- The files merged into it, or planned to be. -/
  filesMerged : Nat
  buckets : Nat
  profileTotal : Bucket
  totalCountSamples : Nat
  timeStdevSamples : Nat
  meanTotalCount? : Option Binary64
  meanTimeStdev? : Option Binary64
  deriving DecidableEq, Repr

/-- The summary of an aggregate. -/
def GroupSummary.ofRecord (group : GroupName) (filesMerged : Nat) (r : Record) : GroupSummary where
  group := group
  filesMerged := filesMerged
  buckets := r.timeProfiles.length
  profileTotal := r.profileTotal
  totalCountSamples := r.totalCounts.length
  timeStdevSamples := r.timeStdevs.length
  meanTotalCount? := r.meanTotalCount?
  meanTimeStdev? := r.meanTimeStdev?

/-- Circumstances of a run. -/
structure Metadata where
  runDate : Moment
  /-- Where published files are read from. -/
  published : String
  /-- Where aggregates are kept. -/
  aggregate : String
  dryRun : Bool
  /-- Duration in seconds. -/
  duration : Binary64
  deriving DecidableEq, Repr

structure Report where
  metadata : Metadata
  files : List FileResult
  groups : List GroupSummary
  deriving DecidableEq, Repr

namespace Report

/-- How many files have an outcome of the given kind. -/
def countOf (r : Report) (p : Outcome → Bool) : Nat := r.files.countP (p ·.outcome)

def total (r : Report) : Nat := r.files.length

def merged (r : Report) : Nat := r.countOf Outcome.isMerged

def planned (r : Report) : Nat := r.countOf Outcome.isPlanned

def skipped (r : Report) : Nat := r.countOf Outcome.isSkipped

def failed (r : Report) : Nat := r.countOf Outcome.isFailed

/-- Some file was skipped or failed. -/
def hasProblems (r : Report) : Bool := 0 < r.skipped || 0 < r.failed

end Report
end Rollup
