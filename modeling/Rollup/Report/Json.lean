/-
# The report as JSON

An indented object with the circumstances, the counts, the files and the groups.
Members that have no value, such as the group of a file without one or the mean
of no samples, are left out.
-/

import Rollup.Json
import Rollup.Report.Basic

namespace Rollup

/-- A member that is left out when it has no value. -/
def Json.optional {α : Type} (name : String) (toJson : α → Json) : Option α → List (String × Json)
  | some value => [(name, toJson value)]
  | none => []

/-- The record as an object. -/
def Record.json (r : Record) : Json := .object [
  ("time_profiles", .array (r.timeProfiles.map fun b => .integer b.value)),
  ("total_counts", .array (r.totalCounts.map .real)),
  ("time_stdevs", .array (r.timeStdevs.map .real))]

def Metadata.json (m : Metadata) : Json := .object [
  ("run_date", .text m.runDate.timestamp),
  ("published", .text m.published),
  ("aggregate", .text m.aggregate),
  ("dry_run", .bool m.dryRun),
  ("duration_seconds", .real m.duration)]

def FileResult.json (f : FileResult) : Json := .object (
  [("file", .text f.file)] ++
  Json.optional "group" (fun g : GroupName => .text g.text) f.group? ++
  [("status", .text f.outcome.status)] ++
  Json.optional "reason" .text f.outcome.reason?)

def GroupSummary.json (s : GroupSummary) : Json := .object (
  [("group", .text s.group.text),
   ("files_merged", .count s.filesMerged),
   ("buckets", .count s.buckets),
   ("profile_total", .integer s.profileTotal.value),
   ("total_count_samples", .count s.totalCountSamples),
   ("time_stdev_samples", .count s.timeStdevSamples)] ++
  Json.optional "mean_total_count" .real s.meanTotalCount? ++
  Json.optional "mean_time_stdev" .real s.meanTimeStdev?)

namespace Report

def countsJson (r : Report) : Json := .object [
  ("total", .count r.total),
  ("merged", .count r.merged),
  ("planned", .count r.planned),
  ("skipped", .count r.skipped),
  ("failed", .count r.failed)]

def json (r : Report) : Json := .object [
  ("metadata", r.metadata.json),
  ("counts", r.countsJson),
  ("files", .array (r.files.map FileResult.json)),
  ("groups", .array (r.groups.map GroupSummary.json))]

/-- The report as an indented JSON text. -/
def jsonText (r : Report) : String := r.json.pretty

end Report
end Rollup
