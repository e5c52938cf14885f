/-
# Runs that settle at once

On a storage that denies nothing, a real run merges a file or skips it.  What makes it
skip a file, unless it is an overflow, does not depend on what was merged before
(`MemoryStore.acceptAfter_of_refused`), so the same file is skipped for the same reason
ever after.  A second run then finds just the files that the first one skipped and
leaves everything as it is (`Aggregator.rerun_settles`).

An overflow is different: a sum of buckets that did not fit may fit after a later file of
the group has been merged, so the second run can merge what the first one skipped.
-/

import Rollup.Proofs.Run.Calls
import Rollup.Proofs.Run.Outcomes
import Rollup.Proofs.Run.Results
import Rollup.Proofs.Run.Schedule

namespace Rollup

namespace MemoryStore

variable {s : MemoryStore} {dry : Bool} {earlier : List String} {file : String}

/-- **A refusal that is no overflow stands**, whatever was merged before. -/
theorem acceptAfter_of_refused {refusal : Attempt}
    (h : s.acceptAfter dry earlier file = .error refusal)
    (hfits : ∀ g e, refusal ≠ .overflowed g e) (dry' : Bool) (later : List String) :
    s.acceptAfter dry' later file = .error refusal := by
  refine accept_eq_error_iff.2 ?_
  cases accept_eq_error_iff.1 h with
  | unnamed hg => exact .unnamed hg
  | unloaded hg hl => exact .unloaded hg (loadRunning_eq_error_iff.2 (loadRunning_eq_error_iff.1 hl))
  | unread hg hl hr =>
    exact .unread hg (loadRunning_eq_ok_iff.2 ⟨(loadRunning_eq_ok_iff.1 hl).1, rfl⟩) hr
  | overflow => exact absurd rfl (hfits _ _)

end MemoryStore

namespace Aggregator

open MemoryStore

/-! ### Runs that are refused every file -/

/-- An aggregator that is refused every file does nothing with them. -/
theorem processAll_of_refused {σ : Type} [Storage σ] {a : Aggregator σ} {files : List String}
    {refusal : String → Attempt} (h : ∀ file ∈ files, a.attempt file = (refusal file, a)) :
    a.processAll files = (files.map fun file => (refusal file).result file, a) := by
  induction files with
  | nil => rfl
  | cons file rest ih =>
    have hfile : a.process file = ((refusal file).result file, a) := by
      rw [process, h file (List.mem_cons_self ..)]
    rw [processAll, hfile]
    show (_ :: (a.processAll rest).1, (a.processAll rest).2) = _
    rw [ih fun f hf => h f (List.mem_cons_of_mem _ hf), List.map_cons]

variable {s : MemoryStore} {a last : Aggregator MemoryStore} {earlier : List String} {file : String}

/-! ### A second run -/

/-- The files still pending after some were processed, in order. -/
theorem Tracks.publishedNames_eq (h : Tracks s earlier last) :
    last.storage.publishedNames =
      s.publishedNames.filter fun file => file ∈ last.storage.published := by
  refine eq_of_ascending id (ordered_publishedNames _) ((ordered_publishedNames s).filter _)
    fun file => ?_
  rw [List.mem_filter, mem_publishedNames, mem_publishedNames, decide_eq_true_iff]
  exact ⟨fun hfile => ⟨(h.mem_published_iff.1 hfile).1, hfile⟩, And.right⟩

/-- A file that is still there meets the account of its group when it is tried again. -/
theorem Tracks.accept_again (h : Tracks s earlier last) (hreal : last.dryRun = false)
    (hfile : file ∈ last.storage.published) :
    Rollup.accept (new last.storage false).currentAggregate last.storage.readPublished file =
      s.acceptAfter false earlier file := by
  have hload : (new last.storage false).currentAggregate = last.currentAggregate := by
    funext g
    rw [Aggregator.currentAggregate, Aggregator.currentAggregate, staged?, staged?, hreal]
    rfl
  rw [hload, funext h.currentAggregate, hreal]
  exact accept_congr rfl (readPublished_congr (h.kept file (h.mem_published_iff.1 hfile).2))

variable {before later : List String}

/-- **What a run on a storage that denies nothing does with a file settles it**: the file
is gone, or it was skipped and is refused for the same reason when it is tried again. -/
theorem Tracks.settled (htracks : Tracks a.storage a.storage.publishedNames last)
    (hdry : last.dryRun = a.dryRun) (h : a.Unhindered) (hfits : ∀ g, ¬a.Overflows g)
    (hnames : a.storage.publishedNames = before ++ file :: later) :
    (file ∉ last.storage.published ∧
      (a.storage.forecast false before file).outcome.isSkipped = false) ∨
    (file ∈ last.storage.published ∧
      (a.storage.forecast false before file).outcome.isSkipped = true ∧
      (new last.storage false).attempt file =
        (a.storage.forecast false before file, new last.storage false)) := by
  have hreal : last.dryRun = false := hdry.trans h.real
  have hp : file ∈ a.storage.published := mem_publishedNames.1 (hnames ▸ by simp)
  cases haccept : a.storage.acceptAfter false before file with
  | ok p =>
    have hmerged : a.storage.forecast false before file = .merged p.1 := by
      rw [forecast_of_accepted haccept, verdict]
      simp [h.readOnly, h.locked]
    refine .inl ⟨fun hfile => (htracks.mem_published_iff.1 hfile).2 ?_, by rw [hmerged]; rfl⟩
    rw [hreal]
    exact ⟨before, later, p.1, hnames, hmerged⟩
  | error refusal =>
    have hfate := forecast_of_refused haccept
    have hstands := acceptAfter_of_refused haccept fun g e he =>
      forecast_ne_overflowed h.real (hfits g) _ _ _ hnames e (hfate.trans he)
    have hfile : file ∈ last.storage.published := by
      refine htracks.mem_published_iff.2 ⟨hp, ?_⟩
      rintro ⟨before', later', g, -, hmerged⟩
      rw [forecast_of_refused (hstands _ before')] at hmerged
      exact (accept_eq_error_iff.1 haccept).ne_merged g hmerged
    rw [hfate]
    refine .inr ⟨hfile, (unmergeable_of_refused hp haccept).2, attempt_of_refused ?_⟩
    exact (htracks.accept_again hreal hfile).trans (hstands _ _)

/-- The results that say a file was skipped are those of the files still there, and they come
again when these are tried again. -/
theorem Tracks.filter_isSkipped {files : List String}
    (htracks : Tracks a.storage a.storage.publishedNames last) (hdry : last.dryRun = a.dryRun)
    (h : a.Unhindered) (hfits : ∀ g, ¬a.Overflows g)
    (hnames : a.storage.publishedNames = before ++ files) :
    (a.storage.forecasts false before files).filter (fun r => r.outcome.isSkipped) =
      (files.filter fun file => file ∈ last.storage.published).map fun file =>
        ((new last.storage false).attempt file).1.result file := by
  induction files generalizing before with
  | nil => rfl
  | cons file rest ih =>
    have hsplit : a.storage.publishedNames = (before ++ [file]) ++ rest := by rw [hnames]; simp
    have hrest := ih hsplit
    rw [forecasts]
    rcases htracks.settled hdry h hfits hnames with ⟨hgone, hskipped⟩ | ⟨hleft, hskipped, hattempt⟩
    · rw [List.filter_cons_of_neg (by simp [Attempt.result, hskipped]),
        List.filter_cons_of_neg (by simpa using hgone), hrest]
    · rw [List.filter_cons_of_pos (by simpa [Attempt.result] using hskipped),
        List.filter_cons_of_pos (by simpa using hleft), List.map_cons, hrest, hattempt]

/-- **Trying all files again changes nothing** and gives the results of the files that were
skipped. -/
theorem Tracks.processAll_again (htracks : Tracks a.storage a.storage.publishedNames last)
    (hdry : last.dryRun = a.dryRun) (h : a.Unhindered) (hfits : ∀ g, ¬a.Overflows g) :
    (new last.storage false).processAll last.storage.publishedNames =
      ((a.storage.forecasts false [] a.storage.publishedNames).filter fun r => r.outcome.isSkipped,
        new last.storage false) := by
  rw [htracks.filter_isSkipped hdry h hfits rfl, ← htracks.publishedNames_eq]
  refine processAll_of_refused fun file hfile => ?_
  have hleft := mem_publishedNames.1 hfile
  obtain ⟨before, later, hnames⟩ :=
    List.append_of_mem (mem_publishedNames.2 (htracks.mem_published_iff.1 hleft).1)
  rcases htracks.settled hdry h hfits hnames with ⟨hgone, -⟩ | ⟨-, -, hattempt⟩
  · exact absurd hleft hgone
  · rw [hattempt]

/-- **Re-running settles at once.**  On a storage that denies nothing, a second real run after
one that skips no file for overflow leaves the storage as it is and summarizes no group, and
its results are those of the first run that say a file or an entry was skipped, in the same
order. -/
theorem rerun_settles (h : a.Unhindered) (hfits : ∀ g, ¬a.Overflows g) (runDate : Moment)
    (duration : Binary64) :
    ∃ report last, a.run runDate duration = (.ok report, last) ∧
      ∀ again : Aggregator MemoryStore, again.dryRun = false → again.storage = last.storage →
        ∀ runDate' duration', ∃ report' last', again.run runDate' duration' = (.ok report', last') ∧
          last'.storage = last.storage ∧ report'.groups = [] ∧
          report'.files = report.files.filter fun r => r.outcome.isSkipped := by
  obtain ⟨report, last, hrun, hfiles, -, hdry, htracks⟩ := run_memory a runDate duration
  refine ⟨report, _, hrun, fun again hreal hstorage runDate' duration' => ?_⟩
  have hfresh : { again with groups := ∅ } = new last.storage false := by
    rw [← hstorage, ← hreal]
    rfl
  have hlist : Storage.listPending again.storage =
      .ok ⟨last.storage.publishedNames, a.storage.unusable⟩ := by
    rw [hstorage, ← htracks.unusable]
    rfl
  obtain ⟨report', hrun', hfiles', hgroups'⟩ :=
    run_of_listing (a := again) rfl hlist runDate' duration'
  have hall := htracks.processAll_again hdry h hfits
  rw [hfresh, hall] at hrun' hfiles' hgroups'
  have hunusable : ((a.storage.unusable.map unusableResult).filter fun r => r.outcome.isSkipped) =
      a.storage.unusable.map unusableResult := by
    refine List.filter_eq_self.2 fun r hr => ?_
    obtain ⟨entry, -, rfl⟩ := List.mem_map.1 hr
    rfl
  refine ⟨report', _, hrun', rfl, hgroups', ?_⟩
  rw [hfiles', hfiles, filter_sortResults, List.filter_append, hunusable, h.real]

/-- A file of each fate (merged, malformed, of a blocked group, without a group) and an unusable
entry. -/
theorem rerun_settles_web :
    let s := (((((MemoryStore.empty.publish "web_1" "1\n\n\n").publish "web_2" "x").publish "app_1"
      "1\n\n\n").putAggregate ⟨"app", by simp [isUsableName]⟩ "x").publish "_1" "1\n\n\n").addUnusable
      "dir_1" "not a regular file"
    (new s false).Unhindered ∧ (∀ g, ¬(new s false).Overflows g) ∧
    ∃ report last, (new s false).run ⟨0, 0⟩ (.zero false) = (.ok report, last) ∧
      ∀ again : Aggregator MemoryStore, again.dryRun = false → again.storage = last.storage →
        ∀ runDate' duration', ∃ report' last', again.run runDate' duration' = (.ok report', last') ∧
          last'.storage = last.storage ∧ report'.groups = [] ∧
          report'.files = report.files.filter fun r => r.outcome.isSkipped := by
  intro s
  let app : GroupName := ⟨"app", by simp [isUsableName]⟩
  let web : GroupName := ⟨"web", by simp [isUsableName]⟩
  have hnone : GroupName.ofFile "_1" = .error (.emptyGroup "_1") := by cbv
  have happ : GroupName.ofFile "app_1" = .ok app := by cbv
  have hfirst : GroupName.ofFile "web_1" = .ok web := by cbv
  have hsecond : GroupName.ofFile "web_2" = .ok web := by cbv
  have hnames : s.publishedNames = ["_1", "app_1", "web_1", "web_2"] := by decide +kernel
  let bad (name : String) : StorageError :=
    .malformed (Path.ofString name) (.row (.malformed .timeProfiles 1 "x" .integer))
  have hattempts : (new s false).attempts s.publishedNames = [.unnamed (.emptyGroup "_1"),
      .rejected app (bad "app"), .merged web, .rejected web (bad "web_2")] := by
    simp only [hnames, attempts, attempt, hnone, happ, hfirst, hsecond]
    decide +kernel
  have hfits : ∀ g, ¬(new s false).Overflows g := by
    rintro g ⟨e, hover⟩
    have hover : .overflowed g e ∈ (new s false).attempts s.publishedNames := hover
    simp [hattempts] at hover
  have h : (new s false).Unhindered := ⟨rfl, rfl, rfl⟩
  exact ⟨h, hfits, rerun_settles h hfits _ _⟩

/-- The sum of the first two files does not fit, that of all three does: the second run merges
the file that the first one skipped. -/
example :
    let s := ((MemoryStore.empty.publish "web_1" "9223372036854775807\n\n\n").publish "web_2"
      "1\n\n\n").publish "web_3" "-1\n\n\n"
    let again := ((new s false).run ⟨0, 0⟩ (.zero false)).2
    again.storage.publishedNames = ["web_2"] ∧
      (again.run ⟨0, 0⟩ (.zero false)).2.storage.publishedNames = [] := by
  intro s again
  have hone : GroupName.ofFile "web_1" = .ok ⟨"web", by simp [isUsableName]⟩ := by cbv
  have htwo : GroupName.ofFile "web_2" = .ok ⟨"web", by simp [isUsableName]⟩ := by cbv
  have hthree : GroupName.ofFile "web_3" = .ok ⟨"web", by simp [isUsableName]⟩ := by cbv
  have hlist : Storage.listPending (new s false).storage =
      .ok ⟨["web_1", "web_2", "web_3"], []⟩ := by decide +kernel
  obtain ⟨report, hrun, -⟩ := run_of_listing rfl hlist ⟨0, 0⟩ (.zero false)
  have hagain : again = _ := congrArg Prod.snd hrun
  have hlist' : Storage.listPending again.storage = .ok ⟨["web_2"], []⟩ := by
    simp only [hagain, processAll, process, attempt, hone, htwo, hthree]
    decide +kernel
  rw [storage_run_of_listing rfl hlist']
  simp only [hagain, processAll, process, attempt, hone, htwo, hthree]
  decide +kernel

end Aggregator
end Rollup
