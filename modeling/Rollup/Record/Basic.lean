/-
# Records of statistics

A record holds three sequences: time profiles, bucket by bucket, and samples of
total counts and of time stdevs.  A published snapshot and the aggregate it is
merged into have the same shape.
-/

import Rollup.Binary64.Arithmetic
import Rollup.Record.Bucket

namespace Rollup

/-- The statistics of one snapshot, or the aggregate of many. -/
structure Record where
  timeProfiles : List Bucket
  totalCounts : List Binary64
  timeStdevs : List Binary64
  deriving DecidableEq, Repr

/-- The sequences of a record, in the order in which they are written. -/
inductive Row where
  | timeProfiles
  | totalCounts
  | timeStdevs
  deriving DecidableEq, Repr

def Row.name : Row → String
  | .timeProfiles => "time profiles"
  | .totalCounts => "total counts"
  | .timeStdevs => "time stdevs"

namespace Record

/-- The record of no snapshot at all. -/
def empty : Record := ⟨[], [], []⟩

/-- The sum over all buckets, held at a bound whenever a step passes it. -/
def profileTotal (r : Record) : Bucket := r.timeProfiles.foldl Bucket.saturatingAdd default

def meanTotalCount? (r : Record) : Option Binary64 := Binary64.mean? r.totalCounts

def meanTimeStdev? (r : Record) : Option Binary64 := Binary64.mean? r.timeStdevs

end Record
end Rollup
