/-
# Exact accounting of a run

What a real run over a storage in memory does, file by file and group by group, in
terms of the storage at its start.  The pending files come in ascending order; a
file is skipped exactly if its name yields no group, the aggregate of its group or
its own content does not parse, or merging it into the running fold of its group
overflows (`Unmergeable`).  Of the others a file fails exactly if its group is
read-only or it is locked (`Denied`), and the rest is merged.  The files that are
saved are those merged and those that are only not removed (`savedIn`); the running
fold of a group is the fold over exactly these, and its text is what is stored at
the end.

`Settles` says all this of the results of a run and of the storage after it, and
`run_settles` that every run does it.
-/

import Mathlib.Data.List.Induction
import Rollup.Proofs.Run.Tracking

namespace Rollup

theorem Outcome.not_failed_of_isSkipped {o : Outcome} (h : o.isSkipped) :
    ¬o.isFailed ∧ ¬o.isMerged := by
  cases o with
  | skipped reason => exact ⟨Bool.false_ne_true, Bool.false_ne_true⟩
  | _ => cases h

namespace MemoryStore

variable {s : MemoryStore} {dry : Bool} {earlier : List String} {file : String}

/-- Why a file is skipped, if `saved` lists the files saved so far for each group. -/
inductive Unmergeable (s : MemoryStore) (saved : GroupName → List String) (file : String) : Prop
  /-- The name yields no group. -/
  | unnamed {e : NameError} (name : GroupName.ofFile file = .error e)
  /-- The aggregate of the group does not parse. -/
  | aggregate {g : GroupName} {text : String} {e : RowFormat.FormatError}
      (name : GroupName.ofFile file = .ok g) (stored : s.aggregates[g]? = some text)
      (malformed : RowFormat.parse text = .error e)
  /-- The content does not parse. -/
  | content {text : String} {e : RowFormat.FormatError} (pending : s.published[file]? = some text)
      (malformed : RowFormat.parse text = .error e)
  /-- Some sum of buckets does not fit. -/
  | overflow {g : GroupName} {text : String} {running incoming : Record} {e : MergeError}
      (name : GroupName.ofFile file = .ok g) (pending : s.published[file]? = some text)
      (parsed : RowFormat.parse text = .ok incoming) (fold : s.IsFold g (saved g) running)
      (overflows : running.merge incoming = .error e)

/-- Saving the group or removing the file is denied. -/
def Denied (s : MemoryStore) (file : String) : Prop :=
  (∃ g ∈ s.readOnly, GroupName.ofFile file = .ok g) ∨ file ∈ s.locked

/-- The files of a group that were saved, by their results: those merged, and those
that failed only when they were to be removed. -/
def savedIn (s : MemoryStore) (results : List FileResult) (g : GroupName) : List String :=
  (results.filter fun r => r.group? = some g ∧
    (r.outcome.isMerged ∨ r.outcome.isFailed ∧ g ∉ s.readOnly)).map FileResult.file

/-- What a real run does on a storage in memory: its results for the pending files,
and the storage after it. -/
structure Settles (s : MemoryStore) (results : List FileResult) (after : MemoryStore) : Prop where
  pending : results.map FileResult.file = s.publishedNames
  ascending : (results.map FileResult.file).Pairwise fun f f' => Utf8.compareText f f' = .lt
  group : ∀ r ∈ results, r.group? = (GroupName.ofFile r.file).toOption
  /-- Before each file and after the last one, the files saved for a group have a fold. -/
  running : ∀ before later, results = before ++ later → ∀ g, ∃ record,
    s.IsFold g (s.savedIn before g) record
  skipped : ∀ before r later, results = before ++ r :: later →
    (r.outcome.isSkipped ↔ s.Unmergeable (s.savedIn before) r.file)
  failed : ∀ before r later, results = before ++ r :: later →
    (r.outcome.isFailed ↔ ¬s.Unmergeable (s.savedIn before) r.file ∧ s.Denied r.file)
  merged : ∀ before r later, results = before ++ r :: later →
    (r.outcome.isMerged ↔ ¬s.Unmergeable (s.savedIn before) r.file ∧ ¬s.Denied r.file)
  /-- A group of which nothing was saved has its aggregate as it was. -/
  unsaved : ∀ g, s.savedIn results g = [] → after.aggregates[g]? = s.aggregates[g]?
  /-- The aggregate of any other group is the fold over exactly the files saved. -/
  saved : ∀ g, s.savedIn results g ≠ [] → ∃ record, s.IsFold g (s.savedIn results g) record ∧
    after.aggregates[g]? = some (RowFormat.render record)
  removed : ∀ r ∈ results, r.outcome.isMerged → after.published[r.file]? = none
  kept : ∀ file, (∀ r ∈ results, r.file = file → ¬r.outcome.isMerged) →
    after.published[file]? = s.published[file]?
  unusable : after.unusable = s.unusable
  readOnly : after.readOnly = s.readOnly
  locked : after.locked = s.locked

/-! ### The fate of one file -/

/-- A pending file that is refused is unmergeable and skipped. -/
theorem unmergeable_of_refused (hp : file ∈ s.published) {t : Attempt}
    (h : s.acceptAfter dry earlier file = .error t) :
    s.Unmergeable (fun g => (s.account dry g earlier).files) file ∧ t.outcome.isSkipped := by
  obtain ⟨text, htext⟩ := Option.isSome_iff_exists.1 (Std.TreeMap.mem_iff_isSome_getElem?.1 hp)
  have hread := readPublished_of_pending htext
  cases accept_eq_error_iff.1 h with
  | unnamed hg => exact ⟨.unnamed hg, rfl⟩
  | unloaded hg hl =>
    obtain ⟨stored, cause, hstored, hparse, rfl⟩ :=
      loadAggregate_eq_error_iff.1 (loadRunning_eq_error_iff.1 hl)
    exact ⟨.aggregate hg hstored hparse, rfl⟩
  | unread hg hl hr =>
    obtain ⟨cause, hparse, rfl⟩ := decode_eq_error_iff.1 (hread.symm.trans hr)
    exact ⟨.content htext hparse, rfl⟩
  | overflow hg hl hr hm =>
    obtain ⟨-, rfl⟩ := loadRunning_eq_ok_iff.1 hl
    have hparse := decode_eq_ok_iff.1 (hread.symm.trans hr)
    exact ⟨.overflow hg htext hparse (isFold_account earlier) hm, rfl⟩

/-- A file that is accepted is not unmergeable. -/
theorem not_unmergeable_of_accepted {g : GroupName} {r : Record}
    (h : s.acceptAfter dry earlier file = .ok (g, r)) :
    ¬s.Unmergeable (fun g => (s.account dry g earlier).files) file := by
  obtain ⟨hg, ⟨o, hl⟩, incoming, hr, hm⟩ := acceptAfter_eq_ok_iff.1 h
  intro hbad
  cases hbad with
  | unnamed h => rw [hg] at h; cases h
  | aggregate h hs hbad =>
    obtain rfl := Except.ok.inj (hg.symm.trans h)
    rw [loadAggregate_eq_error_iff.2 ⟨_, _, hs, hbad, rfl⟩] at hl
    cases hl
  | content ht hbad =>
    rw [readPublished_of_pending ht, decode_eq_ok_iff, hbad] at hr
    cases hr
  | overflow h ht hok hfold hbad =>
    obtain rfl := Except.ok.inj (hg.symm.trans h)
    rw [readPublished_of_pending ht, decode_eq_ok_iff, hok] at hr
    obtain rfl := Except.ok.inj hr
    obtain rfl := hfold.unique (isFold_account earlier)
    rw [hm] at hbad
    cases hbad

theorem group?_forecast (file : String) :
    (s.forecast dry earlier file).group? = (GroupName.ofFile file).toOption := by
  cases haccept : s.acceptAfter dry earlier file with
  | error t =>
    rw [forecast_of_refused haccept]
    exact (accept_eq_error_iff.1 haccept).group?_eq
  | ok p =>
    have hg := (acceptAfter_eq_ok_iff.1 haccept).1
    rw [forecast_of_accepted haccept, hg, verdict]
    (repeat' split) <;> rfl

/-- **The outcome of a file in a real run.** -/
theorem outcome_forecast (hp : file ∈ s.published) (saved : GroupName → List String)
    (hsaved : ∀ g, saved g = (s.account false g earlier).files) :
    ((s.forecast false earlier file).outcome.isSkipped ↔ s.Unmergeable saved file) ∧
    ((s.forecast false earlier file).outcome.isFailed ↔
      ¬s.Unmergeable saved file ∧ s.Denied file) ∧
    ((s.forecast false earlier file).outcome.isMerged ↔
      ¬s.Unmergeable saved file ∧ ¬s.Denied file) := by
  obtain rfl : saved = fun g => (s.account false g earlier).files := funext hsaved
  cases haccept : s.acceptAfter false earlier file with
  | error t =>
    obtain ⟨hbad, hskipped⟩ := unmergeable_of_refused hp haccept
    rw [forecast_of_refused haccept]
    obtain ⟨hfailed, hmerged⟩ := Outcome.not_failed_of_isSkipped hskipped
    simp [hbad, hskipped, hfailed, hmerged]
  | ok p =>
    obtain ⟨g, r⟩ := p
    have hgood := not_unmergeable_of_accepted haccept
    have hdenied : s.Denied file ↔ g ∈ s.readOnly ∨ file ∈ s.locked := by
      unfold Denied
      rw [(acceptAfter_eq_ok_iff.1 haccept).1]
      simp
    rw [forecast_of_accepted haccept, verdict, if_neg Bool.false_ne_true, hdenied]
    by_cases hw : g ∈ s.readOnly
    · rw [if_pos hw]
      simp [hgood, hw, Attempt.outcome, Outcome.isSkipped, Outcome.isFailed, Outcome.isMerged]
    · by_cases hl : file ∈ s.locked
      · rw [if_neg hw, if_pos hl]
        simp [hgood, hl, Attempt.outcome, Outcome.isSkipped, Outcome.isFailed, Outcome.isMerged]
      · rw [if_neg hw, if_neg hl]
        simp [hgood, hw, hl, Attempt.outcome, Outcome.isSkipped, Outcome.isFailed, Outcome.isMerged]

theorem isMerged_outcome_iff {t : Attempt} : t.outcome.isMerged ↔ ∃ g, t = .merged g := by
  constructor
  · intro h
    cases t with
    | merged g => exact ⟨g, rfl⟩
    | rejected g e => simp only [Attempt.outcome] at h; split at h <;> cases h
    | _ => cases h
  · rintro ⟨g, rfl⟩
    rfl

/-! ### The results of a run -/

theorem map_file_forecasts (files : List String) :
    (s.forecasts dry earlier files).map FileResult.file = files := by
  induction files generalizing earlier with
  | nil => rfl
  | cons file rest ih => rw [forecasts, List.map_cons, ih]; rfl

theorem forecasts_append (files later : List String) :
    s.forecasts dry earlier (files ++ later) =
      s.forecasts dry earlier files ++ s.forecasts dry (earlier ++ files) later := by
  induction files generalizing earlier with
  | nil => rw [List.nil_append, List.append_nil]; rfl
  | cons file rest ih =>
    rw [List.cons_append, forecasts, forecasts, ih, List.append_assoc, List.singleton_append]
    rfl

/-- Results before and after some point are those of the files before and after it. -/
theorem forecasts_eq_append {files : List String} {before later : List FileResult}
    (h : s.forecasts dry [] files = before ++ later) :
    before = s.forecasts dry [] (before.map FileResult.file) ∧
    later = s.forecasts dry (before.map FileResult.file) (later.map FileResult.file) := by
  have hfiles : files = before.map FileResult.file ++ later.map FileResult.file := by
    rw [← List.map_append, ← h, map_file_forecasts]
  rw [hfiles, forecasts_append] at h
  have hlength : (s.forecasts dry [] (before.map FileResult.file)).length = before.length := by
    rw [← List.length_map FileResult.file, map_file_forecasts, List.length_map]
  obtain ⟨hbefore, hlater⟩ := List.append_inj h hlength
  exact ⟨hbefore.symm, hlater.symm⟩

theorem savedIn_append (before later : List FileResult) (g : GroupName) :
    s.savedIn (before ++ later) g = s.savedIn before g ++ s.savedIn later g := by
  rw [savedIn, List.filter_append, List.map_append]
  rfl

theorem savedIn_singleton (r : FileResult) (g : GroupName) :
    s.savedIn [r] g = if r.group? = some g ∧ (r.outcome.isMerged ∨ r.outcome.isFailed ∧ g ∉ s.readOnly)
      then [r.file] else [] := by
  simp only [savedIn, List.filter_cons, List.filter_nil, decide_eq_true_eq]
  split <;> rfl

/-- A file is saved for a group exactly if it enters its account. -/
theorem savedIn_forecast (hp : file ∈ s.published) (g : GroupName) :
    s.savedIn [(s.forecast false earlier file).result file] g =
      if (s.next? false g (s.account false g earlier).record file).isSome then [file] else [] := by
  rw [savedIn_singleton]
  cases hnext : s.next? false g (s.account false g earlier).record file with
  | some r =>
    obtain ⟨hw, haccept⟩ := next?_account_eq_some_iff.1 hnext
    have hw : g ∉ s.readOnly := hw.resolve_left Bool.false_ne_true
    rw [forecast_of_accepted haccept, verdict, if_neg Bool.false_ne_true, if_neg hw]
    by_cases hl : file ∈ s.locked
    · rw [if_pos hl, if_pos ⟨rfl, Or.inr ⟨rfl, hw⟩⟩, Option.isSome_some, if_pos rfl]
      rfl
    · rw [if_neg hl, if_pos ⟨rfl, Or.inl rfl⟩, Option.isSome_some, if_pos rfl]
      rfl
  | none =>
    refine if_neg ?_
    rintro ⟨hgroup, hsaved⟩
    cases haccept : s.acceptAfter false earlier file with
    | error t =>
      obtain ⟨hfailed, hmerged⟩ :=
        Outcome.not_failed_of_isSkipped (unmergeable_of_refused hp haccept).2
      rw [forecast_of_refused haccept] at hsaved
      exact hsaved.elim hmerged fun h => hfailed h.1
    | ok p =>
      obtain ⟨h, r⟩ := p
      have hown : (GroupName.ofFile file).toOption = some g := group?_forecast file ▸ hgroup
      rw [(acceptAfter_eq_ok_iff.1 haccept).1] at hown
      obtain rfl : h = g := Option.some.inj hown
      rcases next?_of_accepted haccept with hn | ⟨-, hro, -⟩
      · rw [hn] at hnext
        cases hnext
      · rw [forecast_of_accepted haccept, verdict, if_neg Bool.false_ne_true, if_pos hro] at hsaved
        rcases hsaved with hmerged | ⟨-, hn⟩
        · cases hmerged
        · exact hn hro

/-- **The account of a group has exactly the files that were saved for it.** -/
theorem files_account {files : List String} (hp : ∀ file ∈ files, file ∈ s.published)
    (g : GroupName) :
    (s.account false g files).files = s.savedIn (s.forecasts false [] files) g := by
  induction files using List.reverseRecOn with
  | nil => rfl
  | append_singleton files file ih =>
    rw [account_concat, forecasts_append, savedIn_append, ← ih fun f hf => hp f (by simp [hf])]
    rw [List.nil_append, forecasts, forecasts, savedIn_forecast (hp file (by simp))]
    cases hnext : s.next? false g (s.account false g files).record file with
    | none => rw [enter_of_none hnext]; simp
    | some r => rw [enter_of_next? hnext]; simp

theorem consumed_iff {files : List String} : s.Consumed dry files file ↔
    ∃ r ∈ s.forecasts dry [] files, r.file = file ∧ r.outcome.isMerged := by
  constructor
  · rintro ⟨before, later, g, rfl, hmerged⟩
    refine ⟨(s.forecast dry before file).result file, ?_, rfl, ?_⟩
    · rw [forecasts_append]
      exact List.mem_append_right _ (List.mem_cons_self ..)
    · exact isMerged_outcome_iff.2 ⟨g, hmerged⟩
  · rintro ⟨r, hr, rfl, hmerged⟩
    obtain ⟨before, later, hsplit⟩ := List.append_of_mem hr
    obtain ⟨-, hlater⟩ := forecasts_eq_append hsplit
    obtain ⟨hresult, -⟩ := List.cons.inj hlater
    rw [hresult] at hmerged
    obtain ⟨g, hg⟩ := isMerged_outcome_iff.1 hmerged
    refine ⟨before.map FileResult.file, later.map FileResult.file, g, ?_, hg⟩
    have hfiles := @map_file_forecasts s dry [] files
    rw [← hfiles, hsplit, List.map_append, List.map_cons]

end MemoryStore

namespace Aggregator

open MemoryStore

variable {s : MemoryStore} {last : Aggregator MemoryStore}

/-- A real run that has tracked the accounts of all pending files does what it must. -/
theorem Tracks.settles (h : Tracks s s.publishedNames last) (hreal : last.dryRun = false) :
    s.Settles (s.forecasts false [] s.publishedNames) last.storage := by
  have hnames : ∀ file ∈ s.publishedNames, file ∈ s.published := fun _ => Std.TreeMap.mem_keys.1
  have hsplit : ∀ before later, s.forecasts false [] s.publishedNames = before ++ later →
      (∀ f ∈ before.map FileResult.file ++ later.map FileResult.file, f ∈ s.published) ∧
      ∀ g, s.savedIn before g = (s.account false g (before.map FileResult.file)).files := by
    intro before later hresults
    have hmem : ∀ f ∈ before.map FileResult.file ++ later.map FileResult.file, f ∈ s.published := by
      rw [← List.map_append, ← hresults, map_file_forecasts]
      exact hnames
    refine ⟨hmem, fun g => ?_⟩
    rw [files_account fun f hf => hmem f (List.mem_append_left _ hf), ← (forecasts_eq_append hresults).1]
  have hone : ∀ before r later, s.forecasts false [] s.publishedNames = before ++ r :: later →
      r = (s.forecast false (before.map FileResult.file) r.file).result r.file :=
    fun _ _ _ hresults => (List.cons.inj (forecasts_eq_append hresults).2).1
  have houtcome : ∀ before r later, s.forecasts false [] s.publishedNames = before ++ r :: later →
      (r.outcome.isSkipped ↔ s.Unmergeable (s.savedIn before) r.file) ∧
      (r.outcome.isFailed ↔ ¬s.Unmergeable (s.savedIn before) r.file ∧ s.Denied r.file) ∧
      (r.outcome.isMerged ↔ ¬s.Unmergeable (s.savedIn before) r.file ∧ ¬s.Denied r.file) := by
    intro before r later hresults
    obtain ⟨hmem, hsaved⟩ := hsplit _ _ hresults
    have hr : r.outcome = (s.forecast false (before.map FileResult.file) r.file).outcome :=
      congrArg FileResult.outcome (hone _ _ _ hresults)
    rw [hr]
    exact outcome_forecast (hmem r.file (by simp)) _ hsaved
  have hall : ∀ g, s.savedIn (s.forecasts false [] s.publishedNames) g =
      (s.account false g s.publishedNames).files := fun g => (files_account hnames g).symm
  have htext : ∀ g, last.storage.aggregates[g]? =
      (s.account false g s.publishedNames).text?.or s.aggregates[g]? := hreal ▸ h.stored hreal
  have hconsumed : ∀ file, s.Consumed last.dryRun s.publishedNames file ↔
      ∃ r ∈ s.forecasts false [] s.publishedNames, r.file = file ∧ r.outcome.isMerged := fun file =>
    hreal ▸ consumed_iff
  exact {
    pending := map_file_forecasts _
    ascending := by
      rw [map_file_forecasts]
      exact Std.TreeMap.ordered_keys
    group := fun r hr => by
      obtain ⟨before, later, hresults⟩ := List.append_of_mem hr
      have := congrArg FileResult.group? (hone _ _ _ hresults)
      rw [this]
      exact group?_forecast _
    running := fun before later hresults g => by
      rw [(hsplit _ _ hresults).2]
      exact ⟨_, isFold_account _⟩
    skipped := fun before r later hresults => (houtcome before r later hresults).1
    failed := fun before r later hresults => (houtcome before r later hresults).2.1
    merged := fun before r later hresults => (houtcome before r later hresults).2.2
    unsaved := fun g hg => by
      rw [hall] at hg
      rw [htext, Account.text?_of_nil hg, Option.none_or]
    saved := fun g hg => by
      rw [hall] at hg
      rw [hall, htext, Account.text?_of_ne_nil hg, Option.some_or]
      exact ⟨_, isFold_account _, rfl⟩
    removed := fun r hr hmerged => h.consumed _ ((hconsumed _).2 ⟨r, hr, rfl, hmerged⟩)
    kept := fun file hfile => h.kept file fun hgone => by
      obtain ⟨r, hr, he, hmerged⟩ := (hconsumed file).1 hgone
      exact hfile r hr he hmerged
    unusable := h.unusable
    readOnly := h.readOnly
    locked := h.locked }

/-- **Exact accounting of a run.**  A real run over a storage in memory succeeds,
whatever was processed before, and settles the pending files; its report lists the
results and the unusable entries. -/
theorem run_settles (a : Aggregator MemoryStore) (hreal : a.dryRun = false) (runDate : Moment)
    (duration : Binary64) :
    ∃ report last results, a.run runDate duration = (.ok report, last) ∧
      report.files = sortResults (a.storage.unusable.map unusableResult ++ results) ∧
      a.storage.Settles results last.storage := by
  obtain ⟨report, last, hrun, hfiles, -, hdry, htracks⟩ := run_memory a runDate duration
  rw [hreal] at hfiles hdry
  exact ⟨report, _, _, hrun, hfiles, htracks.settles hdry⟩

/-- A storage with a file that cannot be removed. -/
theorem run_settles_locked :
    let storage := (MemoryStore.empty.publish "web_1" "1,2\n\n\n").lock "web_1"
    (new storage false).dryRun = false ∧ ∃ report last results,
      (new storage false).run ⟨0, 0⟩ (.zero false) = (.ok report, last) ∧
      report.files = sortResults (storage.unusable.map unusableResult ++ results) ∧
      storage.Settles results last.storage :=
  ⟨rfl, run_settles _ rfl _ _⟩

end Aggregator
end Rollup
