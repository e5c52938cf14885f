/-
# A dry run foretells the real run

A dry run loads the aggregate of a group once and goes on from what it has staged; a
real run reads back the text that it has saved.  On a storage in memory in which
every group can be saved and every file removed, the accounts of both modes agree
(`MemoryStore.account_true`), so the dry run says of each file what the real run
will do, with *planned* in the place of *merged*, and both report the same groups
(`Aggregator.dry_run_foretells`).
-/

import Mathlib.Data.List.Forall2
import Rollup.Proofs.Run.Outcomes
import Rollup.Proofs.Run.Results

namespace Rollup

/-- What a dry run says of a file that a real run has dealt with. -/
inductive Outcome.Foretells : Outcome → Outcome → Prop
  | merged : Foretells .planned .merged
  | skipped (reason : String) : Foretells (.skipped reason) (.skipped reason)

/-- The result of a dry run for a file, and that of a real run. -/
structure FileResult.Foretells (d r : FileResult) : Prop where
  file : d.file = r.file
  group : d.group? = r.group?
  outcome : d.outcome.Foretells r.outcome

/-- The outcome in a dry run. -/
def Outcome.rehearsed : Outcome → Outcome
  | .merged => .planned
  | o => o

/-- The result in a dry run. -/
def FileResult.rehearsed (r : FileResult) : FileResult := { r with outcome := r.outcome.rehearsed }

theorem FileResult.rehearsed_foretells {r : FileResult}
    (h : r.outcome.isMerged ∨ r.outcome.isSkipped) : r.rehearsed.Foretells r := by
  refine ⟨rfl, rfl, ?_⟩
  unfold FileResult.rehearsed
  cases ho : r.outcome with
  | merged => exact .merged
  | skipped reason => exact .skipped reason
  | planned => rw [ho] at h; rcases h with h | h <;> cases h
  | failed reason => rw [ho] at h; rcases h with h | h <;> cases h

namespace MemoryStore

variable {s : MemoryStore}

/-- **The accounts of both modes agree** if every group can be saved. -/
theorem account_true (hw : s.readOnly = []) (g : GroupName) (files : List String) :
    s.account true g files = s.account false g files := by
  have henter : s.enter true g = s.enter false g := by
    funext acc file
    unfold enter next?
    simp [hw]
  rw [account, account, henter]

theorem forecast_true (hw : s.readOnly = []) (hl : s.locked = []) (earlier : List String)
    (file : String) : (s.forecast true earlier file).result file =
      ((s.forecast false earlier file).result file).rehearsed := by
  have hsame : s.acceptAfter true earlier file = s.acceptAfter false earlier file := by
    simp only [acceptAfter, account_true hw]
  cases haccept : s.acceptAfter false earlier file with
  | error t =>
    rw [forecast_of_refused (hsame.trans haccept), forecast_of_refused haccept]
    cases accept_eq_error_iff.1 haccept with
    | unnamed | overflow => rfl
    | unloaded | unread =>
      simp only [Attempt.result, FileResult.rehearsed, Attempt.outcome]
      split <;> rfl
  | ok p =>
    rw [forecast_of_accepted (hsame.trans haccept), forecast_of_accepted haccept]
    simp only [verdict, hw, hl]
    rfl

theorem forecasts_true (hw : s.readOnly = []) (hl : s.locked = []) (earlier files : List String) :
    s.forecasts true earlier files = (s.forecasts false earlier files).map FileResult.rehearsed := by
  induction files generalizing earlier with
  | nil => rfl
  | cons file rest ih => rw [forecasts, forecasts, List.map_cons, ih, forecast_true hw hl]

/-- Each pending file is merged or skipped if nothing is denied. -/
theorem forecasts_merged_or_skipped (hw : s.readOnly = []) (hl : s.locked = []) {earlier : List String}
    {files : List String} (hp : ∀ file ∈ files, file ∈ s.published) :
    ∀ r ∈ s.forecasts false earlier files, r.outcome.isMerged ∨ r.outcome.isSkipped := by
  induction files generalizing earlier with
  | nil => intro r hr; cases hr
  | cons file rest ih =>
    intro r hr
    rcases List.mem_cons.1 hr with rfl | hr
    · obtain ⟨hskipped, -, hmerged⟩ := outcome_forecast (hp file (by simp)) _ fun _ => rfl
      by_cases hbad : s.Unmergeable (fun g => (s.account false g earlier).files) file
      · exact Or.inr (hskipped.2 hbad)
      · have hdenied : ¬s.Denied file := by simp [Denied, hw, hl]
        exact Or.inl (hmerged.2 ⟨hbad, hdenied⟩)
    · exact ih (fun f hf => hp f (by simp [hf])) r hr

end MemoryStore

namespace Aggregator

open MemoryStore

/-- Two runs that stand where the same accounts say report the same groups. -/
theorem summaries_eq {a b : Aggregator MemoryStore}
    (h : ∀ g : GroupName, a.groups[g]? = b.groups[g]?) : a.summaries = b.summaries := by
  have hgroups : a.groups.toList = b.groups.toList :=
    (Std.TreeMap.Equiv.of_forall_constGet?_eq h).toList_eq
  rw [summaries, summaries, hgroups]

/-- **A dry run foretells the real run.**  On a storage that denies nothing, whatever
was staged before, a dry run leaves the storage as it is and reports the same files,
groups and summaries as a real run, each file that the real run merges as planned and
each file that it skips as skipped for the same reason; no file fails. -/
theorem dry_run_foretells (s : MemoryStore) (hw : s.readOnly = []) (hl : s.locked = [])
    (staged staged' : Std.TreeMap GroupName Staged GroupName.compare) (runDate runDate' : Moment)
    (duration duration' : Binary64) :
    ∃ dry real afterDry afterReal,
      run ⟨s, true, staged⟩ runDate duration = (.ok dry, afterDry) ∧
      run ⟨s, false, staged'⟩ runDate' duration' = (.ok real, afterReal) ∧
      afterDry.storage = s ∧ List.Forall₂ FileResult.Foretells dry.files real.files ∧
      dry.groups = real.groups := by
  obtain ⟨dry, lastDry, hdry, hdryFiles, hdryGroups, hdryMode, hdryTracks⟩ :=
    run_memory ⟨s, true, staged⟩ runDate duration
  obtain ⟨real, lastReal, hreal, hrealFiles, hrealGroups, hrealMode, hrealTracks⟩ :=
    run_memory ⟨s, false, staged'⟩ runDate' duration'
  replace hdryFiles : dry.files = sortResults (s.unusable.map unusableResult ++
      s.forecasts true [] s.publishedNames) := hdryFiles
  replace hrealFiles : real.files = sortResults (s.unusable.map unusableResult ++
      s.forecasts false [] s.publishedNames) := hrealFiles
  refine ⟨dry, real, _, _, hdry, hreal, hdryTracks.untouched hdryMode, ?_, ?_⟩
  · have hunusable : (s.unusable.map unusableResult).map FileResult.rehearsed =
        s.unusable.map unusableResult := by
      rw [List.map_map]
      rfl
    have hfiles : dry.files = real.files.map FileResult.rehearsed := by
      rw [hdryFiles, hrealFiles, map_sortResults FileResult.rehearsed fun _ => rfl, List.map_append,
        hunusable, forecasts_true hw hl]
    rw [hfiles, List.forall₂_map_left_iff, List.forall₂_same]
    intro r hr
    rw [hrealFiles, sortResults, List.mem_mergeSort, List.mem_append] at hr
    refine FileResult.rehearsed_foretells ?_
    rcases hr with hr | hr
    · obtain ⟨entry, -, rfl⟩ := List.mem_map.1 hr
      exact Or.inr rfl
    · exact forecasts_merged_or_skipped hw hl (fun _ => Std.TreeMap.mem_keys.1) r hr
  · rw [hdryGroups, hrealGroups]
    refine summaries_eq fun g => ?_
    rw [hdryTracks.staged, hrealTracks.staged, hdryMode, hrealMode, account_true hw]

/-- A storage with a file to merge and one that does not parse. -/
theorem dry_run_foretells_web :
    let s := (MemoryStore.empty.publish "web_1" "1,2\n\n\n").publish "web_2" "x\n\n\n"
    s.readOnly = [] ∧ s.locked = [] ∧ ∃ dry real afterDry afterReal,
      run ⟨s, true, ∅⟩ ⟨0, 0⟩ (.zero false) = (.ok dry, afterDry) ∧
      run ⟨s, false, ∅⟩ ⟨0, 0⟩ (.zero false) = (.ok real, afterReal) ∧
      afterDry.storage = s ∧ List.Forall₂ FileResult.Foretells dry.files real.files ∧
      dry.groups = real.groups :=
  ⟨rfl, rfl, dry_run_foretells _ rfl rfl ∅ ∅ _ _ _ _⟩

end Aggregator
end Rollup
