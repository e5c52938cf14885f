/-
# The report as plain text

Four sections: circumstances, counts, files and groups.  Counts of zero are left
out, a file without a group has no arrow, and the last section stands only if a
file was merged.  Durations have three places and means four.
-/

import Rollup.Report.Basic

namespace Rollup

def Outcome.emoji : Outcome → String
  | .merged => "✅"
  | .planned => "📝"
  | .skipped _ => "⏭️"
  | .failed _ => "❌"

namespace Metadata

def title (m : Metadata) : String :=
  if m.dryRun then "mt-combine run report (dry run)\n\n" else "mt-combine run report\n\n"

def text (m : Metadata) : String :=
  "Run date:   " ++ m.runDate.text ++ "\n" ++
  "Published:  " ++ m.published ++ "\n" ++
  "Aggregates: " ++ m.aggregate ++ "\n" ++
  "Duration:   " ++ String.ofList (Decimal.fixed 3 m.duration) ++ "s\n\n"

end Metadata

/-- The lines of one file. -/
def FileResult.text (f : FileResult) : String :=
  let arrow := match f.group? with
    | some group => " -> " ++ group.text
    | none => ""
  let reason := match f.outcome.reason? with
    | some reason => "      " ++ reason ++ "\n"
    | none => ""
  "  " ++ f.outcome.emoji ++ " " ++ f.file ++ arrow ++ " [" ++ f.outcome.status ++ "]\n" ++ reason

namespace GroupSummary

/-- A mean with four places; a dash for none. -/
def meanText : Option Binary64 → String
  | some x => String.ofList (Decimal.fixed 4 x)
  | none => "-"

/-- The line of one group. -/
def text (s : GroupSummary) : String :=
  "  " ++ s.group.text ++ ": " ++ Decimal.natText s.filesMerged ++ " file(s), " ++
  Decimal.natText s.buckets ++ " buckets (total " ++ s.profileTotal.text ++ "), " ++
  Decimal.natText s.totalCountSamples ++ " counts (mean " ++ meanText s.meanTotalCount? ++ "), " ++
  Decimal.natText s.timeStdevSamples ++ " stdevs (mean " ++ meanText s.meanTimeStdev? ++ ")\n"

end GroupSummary

namespace Report

/-- A count with its label; nothing for zero. -/
def labelled (label : String) (n : Nat) : String :=
  if 0 < n then " | " ++ label ++ ": " ++ Decimal.natText n else ""

def countsText (r : Report) : String :=
  "Files: " ++ Decimal.natText r.total ++ labelled "merged" r.merged ++
  labelled "planned" r.planned ++ labelled "skipped" r.skipped ++ labelled "failed" r.failed ++ "\n\n"

def filesText (r : Report) : String :=
  if r.files.isEmpty then "No published files were pending.\n\n"
  else "Files:\n" ++ String.join (r.files.map FileResult.text) ++ "\n"

def groupsText (r : Report) : String :=
  if r.groups.isEmpty then "" else "Groups:\n" ++ String.join (r.groups.map GroupSummary.text)

/-- The report as plain text. -/
def text (r : Report) : String :=
  r.metadata.title ++ r.metadata.text ++ r.countsText ++ r.filesText ++ r.groupsText

end Report
end Rollup
