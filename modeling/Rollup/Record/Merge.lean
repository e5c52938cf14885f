/-
# Merging records

Time profiles are added bucket by bucket, and the tail of the longer one is kept
as it is.  Total counts and time stdevs are gathered and sorted.  A merge fails
only when a sum of buckets does not fit; the error names the first such bucket.
-/

import Rollup.Record.Basic

namespace Rollup

/-- A bucket whose sum does not fit. -/
structure MergeError where
  index : Nat
  existing : Bucket
  incoming : Bucket
  deriving DecidableEq, Repr

def MergeError.message (e : MergeError) : String :=
  "time profile bucket " ++ Decimal.natText e.index ++ " overflows (" ++
    e.existing.text ++ " + " ++ e.incoming.text ++ ")"

namespace Record

/-- The sums of two time profiles whose first buckets stand at `index`. -/
def addProfiles (index : Nat) : List Bucket → List Bucket → Except MergeError (List Bucket)
  | [], incoming => .ok incoming
  | existing, [] => .ok existing
  | e :: existing, i :: incoming =>
    match e.add? i with
    | none => .error ⟨index, e, i⟩
    | some sum => (addProfiles (index + 1) existing incoming).map (sum :: ·)

/-- The samples of both, in ascending order. -/
def mergeSamples (existing incoming : List Binary64) : List Binary64 :=
  Binary64.sort (existing ++ incoming)

/-- The aggregate with a snapshot merged into it. -/
def merge (existing incoming : Record) : Except MergeError Record := do
  let profiles ← addProfiles 0 existing.timeProfiles incoming.timeProfiles
  return {
    timeProfiles := profiles
    totalCounts := mergeSamples existing.totalCounts incoming.totalCounts
    timeStdevs := mergeSamples existing.timeStdevs incoming.timeStdevs }

end Record
end Rollup
