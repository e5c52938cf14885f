/-
# What a run reports

The report of a run over a storage in memory is complete and agrees with the storage
(`Aggregator.run_reports`).  It lists each pending file and each unusable entry once, in the
order of names, with an outcome of its mode.  It summarizes the groups that some file counts
for (`FileResult.countsFor`): it was merged, or is planned to be, or it was saved and could not
be removed.  These are the groups whose account has files, since a file counts for the group
whose account it enters (`MemoryStore.countsFor_forecast`); so the summary of a group counts the
files of its account, and in a real run it is that of the aggregate stored at the end, which is
the account as text.
-/

import Rollup.Proofs.Run.Exits
import Rollup.Proofs.Run.Outcomes
import Rollup.Proofs.Run.Results

namespace Rollup

/-! ### Outcomes in a report -/

/-- The modes in which an outcome occurs; only a real run touches the storage. -/
def Outcome.occursIn (dry : Bool) : Outcome → Bool
  | .merged | .failed _ => !dry
  | .planned => dry
  | .skipped _ => true

theorem Outcome.not_planned {o : Outcome} (h : o.occursIn false = true) : o.isPlanned = false := by
  cases o with
  | planned => cases h
  | _ => rfl

theorem Outcome.not_merged_or_failed {o : Outcome} (h : o.occursIn true = true) :
    o.isMerged = false ∧ o.isFailed = false := by
  cases o with
  | merged | failed => cases h
  | _ => exact ⟨rfl, rfl⟩

/-- The file was merged, or will be; that it could not be removed does not matter. -/
def Outcome.isCounted (o : Outcome) : Bool := o.isMerged || o.isPlanned || o.isUndeleted

/-- The file counts among those merged into the group. -/
def FileResult.countsFor (g : GroupName) (r : FileResult) : Bool :=
  r.group? = some g && r.outcome.isCounted

theorem FileResult.countsFor_iff {g : GroupName} {r : FileResult} :
    r.countsFor g = true ↔ r.group? = some g ∧ r.outcome.isCounted = true := by
  rw [countsFor, Bool.and_eq_true_iff, decide_eq_true_iff]

theorem Outcome.IsUnmerged.not_isCounted {o : Outcome} (h : o.IsUnmerged) : o.isCounted = false := by
  cases o with
  | merged | planned => rcases h with h | ⟨h, -⟩ <;> cases h
  | skipped reason => rfl
  | failed reason => exact (h.resolve_left Bool.false_ne_true).2

/-! ### Files that count for a group -/

namespace MemoryStore

variable {s : MemoryStore} {dry : Bool} {earlier : List String} {file : String} {g : GroupName}

/-- A pending file has an outcome of the mode. -/
theorem occursIn_forecast (hp : file ∈ s.published) :
    (s.forecast dry earlier file).outcome.occursIn dry = true := by
  cases haccept : s.acceptAfter dry earlier file with
  | error t =>
    rw [forecast_of_refused haccept]
    have hskipped := (unmergeable_of_refused hp haccept).2
    cases houtcome : t.outcome with
    | skipped reason => rfl
    | _ => rw [houtcome] at hskipped; cases hskipped
  | ok p =>
    rw [forecast_of_accepted haccept, verdict]
    cases dry with
    | true => rfl
    | false => (repeat' split) <;> first | rfl | contradiction

theorem group?_verdict (g : GroupName) (file : String) : (s.verdict dry g file).group? = some g := by
  unfold verdict
  (repeat' split) <;> rfl

/-- A file that is accepted counts if its group can be saved, or need not be. -/
theorem isCounted_verdict (g : GroupName) (file : String) :
    (s.verdict dry g file).outcome.isCounted = true ↔ dry = true ∨ g ∉ s.readOnly := by
  unfold verdict
  by_cases hdry : dry = true
  · rw [if_pos hdry]
    exact iff_of_true rfl (Or.inl hdry)
  by_cases hro : g ∈ s.readOnly
  · rw [if_neg hdry, if_pos hro]
    have hunsaved : (Attempt.unsaved g (.io (Path.ofString g.text) .denied)).outcome.IsUnmerged :=
      Or.inr ⟨rfl, StorageError.not_isUndeleted _⟩
    exact iff_of_false (Bool.eq_false_iff.1 hunsaved.not_isCounted) (by simp [hdry, hro])
  · rw [if_neg hdry, if_neg hro]
    refine iff_of_true ?_ (Or.inr hro)
    split
    · exact Bool.or_eq_true_iff.2 (Or.inr (isUndeleted_append _))
    · rfl

/-- The results of pending files have outcomes of the mode. -/
theorem occursIn_forecasts {files : List String} (hp : ∀ file ∈ files, file ∈ s.published) :
    ∀ r ∈ s.forecasts dry earlier files, r.outcome.occursIn dry = true := by
  induction files generalizing earlier with
  | nil => intro r hr; cases hr
  | cons file rest ih =>
    intro r hr
    rcases List.mem_cons.1 hr with rfl | hr
    · exact occursIn_forecast (hp file (by simp))
    · exact ih (fun f hf => hp f (by simp [hf])) r hr

/-- **A file counts for the group whose account it enters**, and for no other. -/
theorem countsFor_forecast (file : String) (g : GroupName) :
    ((s.forecast dry earlier file).result file).countsFor g = true ↔
      ∃ r, s.next? dry g (s.account dry g earlier).record file = some r := by
  simp only [next?_account_eq_some_iff, FileResult.countsFor_iff, Attempt.result]
  cases haccept : s.acceptAfter dry earlier file with
  | error t =>
    rw [forecast_of_refused haccept, (accept_eq_error_iff.1 haccept).isUnmerged.not_isCounted]
    simp
  | ok p =>
    obtain ⟨k, r⟩ := p
    rw [forecast_of_accepted haccept, group?_verdict, isCounted_verdict, Option.some.injEq]
    constructor
    · rintro ⟨rfl, hw⟩
      exact ⟨r, hw, rfl⟩
    · rintro ⟨r', hw, he⟩
      obtain ⟨rfl, -⟩ := Prod.mk.inj (Except.ok.inj he)
      exact ⟨rfl, hw⟩

/-- **The files of an account are those that count for its group.** -/
theorem files_account_eq (files : List String) (g : GroupName) :
    (s.account dry g files).files =
      ((s.forecasts dry [] files).filter (FileResult.countsFor g)).map FileResult.file := by
  induction files using List.reverseRecOn with
  | nil => rfl
  | append_singleton files file ih =>
    rw [account_concat, forecasts_append, List.filter_append, List.map_append, ← ih,
      List.nil_append, forecasts, forecasts]
    have hcounts := @countsFor_forecast s dry files file g
    cases hnext : s.next? dry g (s.account dry g files).record file with
    | none =>
      rw [hnext] at hcounts
      rw [enter_of_none hnext, List.filter_cons_of_neg (by simp [hcounts])]
      simp
    | some r =>
      rw [enter_of_next? hnext, List.filter_cons_of_pos (hcounts.2 ⟨r, hnext⟩)]
      rfl

end MemoryStore

/-! ### The report -/

namespace Aggregator

open MemoryStore

variable {s : MemoryStore} {a last : Aggregator MemoryStore} {names : List String}

/-- What a run has summarized: the accounts that have files. -/
theorem Tracks.mem_summaries (h : Tracks s names last) {summary : GroupSummary} :
    summary ∈ last.summaries ↔ ∃ g, (s.account last.dryRun g names).files ≠ [] ∧
      summary = .ofRecord g (s.account last.dryRun g names).files.length
        (s.account last.dryRun g names).record := by
  rw [summaries, List.mem_map, Prod.exists]
  refine exists_congr fun g => ?_
  have hmem : ∀ staged, (g, staged) ∈ last.groups.toList ↔
      (s.account last.dryRun g names).staged? = some staged := fun staged => by
    rw [Std.TreeMap.mem_toList_iff_getElem?_eq_some, h.staged]
  constructor
  · rintro ⟨staged, hstaged, rfl⟩
    rw [hmem] at hstaged
    by_cases hnil : (s.account last.dryRun g names).files = []
    · rw [Account.staged?_of_nil hnil] at hstaged
      cases hstaged
    · rw [Account.staged?_of_ne_nil hnil] at hstaged
      obtain rfl := Option.some.inj hstaged
      exact ⟨hnil, rfl⟩
  · rintro ⟨hne, rfl⟩
    exact ⟨_, (hmem _).2 (Account.staged?_of_ne_nil hne), rfl⟩

/-- The summaries ascend by group. -/
theorem ascending_summaries {σ : Type} [Storage σ] (a : Aggregator σ) :
    a.summaries.Pairwise fun t u => t.group.compare u.group = .lt :=
  List.pairwise_map.2 Std.TreeMap.ordered_keys_toList

/-- A complete report of a run over `s` that agrees with the storage `after` it. -/
structure Reports (s : MemoryStore) (dryRun : Bool) (report : Report) (after : MemoryStore) : Prop where
  /-- Each pending file and each unusable entry is listed once. -/
  listed : ∃ results, results.map FileResult.file = s.publishedNames ∧
    report.files.Perm (s.unusable.map unusableResult ++ results)
  ascending : report.files.Pairwise fun r r' => (Utf8.compareText r.file r'.file).isLE = true
  total : report.total = report.files.length ∧
    report.total = report.merged + report.planned + report.skipped + report.failed
  real : dryRun = false → report.planned = 0
  dry : dryRun = true → report.merged = 0 ∧ report.failed = 0
  hasProblems : report.hasProblems = true ↔
    ∃ r ∈ report.files, r.outcome.isSkipped ∨ r.outcome.isFailed
  groupsAscending : report.groups.Pairwise fun t u => t.group.compare u.group = .lt
  /-- The groups summarized are those that some file counts for. -/
  summarized : ∀ g, (∃ summary ∈ report.groups, summary.group = g) ↔
    ∃ r ∈ report.files, r.countsFor g = true
  filesMerged : ∀ summary ∈ report.groups,
    summary.filesMerged = report.files.countP (FileResult.countsFor summary.group)
  /-- A real run summarizes the aggregates that are stored after it. -/
  stored : dryRun = false → ∀ summary ∈ report.groups, ∃ record,
    after.loadAggregate summary.group = .ok (some record) ∧
    summary = .ofRecord summary.group summary.filesMerged record

section Listed

variable {report : Report} {unusable : List Unusable} {dry : Bool}
  (h : report.files.Perm (unusable.map unusableResult ++ s.forecasts dry [] names))

include h

theorem occursIn_of_listed (hp : ∀ file ∈ names, file ∈ s.published) :
    ∀ r ∈ report.files, r.outcome.occursIn dry = true := by
  intro r hr
  rcases List.mem_append.1 (h.mem_iff.1 hr) with hr | hr
  · obtain ⟨entry, -, rfl⟩ := List.mem_map.1 hr
    rfl
  · exact occursIn_forecasts hp r hr

/-- The files that count for a group are those of its account. -/
theorem countP_countsFor (g : GroupName) :
    report.files.countP (FileResult.countsFor g) = (s.account dry g names).files.length := by
  have hunusable : (unusable.map unusableResult).countP (FileResult.countsFor g) = 0 := by
    rw [List.countP_eq_zero]
    intro r hr
    obtain ⟨entry, -, rfl⟩ := List.mem_map.1 hr
    rw [FileResult.countsFor_iff]
    rintro ⟨-, hcounted⟩
    cases hcounted
  rw [h.countP_eq, List.countP_append, hunusable, Nat.zero_add, files_account_eq, List.length_map,
    List.countP_eq_length_filter]

end Listed

/-- **A run gives a complete report that agrees with the storage**, in either mode and whatever
was done before. -/
theorem run_reports (a : Aggregator MemoryStore) (runDate : Moment) (duration : Binary64) :
    ∃ report last, a.run runDate duration = (.ok report, last) ∧
      Reports a.storage a.dryRun report last.storage := by
  obtain ⟨report, last, hrun, hfiles, hgroups, hmode, htracks⟩ := run_memory a runDate duration
  have hperm : report.files.Perm (a.storage.unusable.map unusableResult ++
      a.storage.forecasts a.dryRun [] a.storage.publishedNames) := hfiles ▸ perm_sortResults _
  have hcount := countP_countsFor hperm
  have hoccurs := occursIn_of_listed hperm fun _ => mem_publishedNames.1
  have hsummary : ∀ summary, summary ∈ report.groups ↔ ∃ g,
      (a.storage.account a.dryRun g a.storage.publishedNames).files ≠ [] ∧
      summary = .ofRecord g (a.storage.account a.dryRun g a.storage.publishedNames).files.length
        (a.storage.account a.dryRun g a.storage.publishedNames).record := fun summary => by
    rw [hgroups, htracks.mem_summaries, hmode]
  refine ⟨report, _, hrun, ?_⟩
  exact {
    listed := ⟨_, map_file_forecasts _, hperm⟩
    ascending := hfiles ▸ ascending_sortResults _
    total := ⟨rfl, report.total_eq⟩
    real := fun hreal => Report.countOf_eq_zero fun r hr =>
      Outcome.not_planned (hreal ▸ hoccurs r hr)
    dry := fun hdry =>
      have hnot := fun r hr => Outcome.not_merged_or_failed (hdry ▸ hoccurs r hr)
      ⟨Report.countOf_eq_zero fun r hr => (hnot r hr).1,
        Report.countOf_eq_zero fun r hr => (hnot r hr).2⟩
    hasProblems := Report.hasProblems_iff
    groupsAscending := hgroups ▸ ascending_summaries last
    summarized := fun g => by
      rw [← List.countP_pos_iff, hcount, List.length_pos_iff]
      constructor
      · rintro ⟨summary, hmem, rfl⟩
        obtain ⟨k, hne, rfl⟩ := (hsummary summary).1 hmem
        exact hne
      · exact fun hne => ⟨_, (hsummary _).2 ⟨g, hne, rfl⟩, rfl⟩
    filesMerged := fun summary hmem => by
      obtain ⟨g, -, rfl⟩ := (hsummary summary).1 hmem
      exact (hcount g).symm
    stored := fun hreal summary hmem => by
      obtain ⟨g, hne, rfl⟩ := (hsummary summary).1 hmem
      rw [← hmode] at hne hreal ⊢
      exact ⟨_, htracks.loadAggregate hreal hne, rfl⟩ }

end Aggregator
end Rollup
