/-
# The footprint of a real run on disk

What a real run over a storage in two directories leaves behind, whatever the tree holds:
links between published files, dangling links, links into the other directory, sockets,
directories in the place of aggregates.  Only two kinds of places are touched, the entries
of the files that are merged, which are gone, and the aggregates of their groups, which are
files with the text of a record (`DirectoryStore.Touched`).  All else is as it was, the
temporary files included, and a new scan lists exactly the files that were not merged
(`Aggregator.run_footprint`).

What carries the argument is that a run keeps all ways.  Therefore each file is looked up in
the same directories as at first, and an entry that stays stands for a directory exactly if
it did before.
-/

import Rollup.Proofs.Run.Results
import Rollup.Proofs.Run.Ways

namespace Rollup

namespace DirectoryStore

open FileSystem

variable {P A : Location} {fs fs' fs'' : FileSystem} {results results' : List FileResult}
  {r : FileResult} {file : String} {g : GroupName}

/-- The tree after files were processed with the given results: the files that were merged
are gone from `P`, the aggregates of their groups stand in `A`, and the rest is as it was. -/
structure Touched (P A : Location) (fs fs' : FileSystem) (results : List FileResult) : Prop where
  workingDirectory : fs'.workingDirectory = fs.workingDirectory
  ways : SameWays fs fs'
  kept : ∀ l, (∀ r ∈ results, r.outcome.isMerged → l ≠ P ++ [Path.ofString r.file] ∧
    ∀ g, r.group? = some g → l ≠ A ++ [Path.ofString g.text]) → fs'.entryAt? l = fs.entryAt? l
  removed : ∀ r ∈ results, r.outcome.isMerged → fs'.entryAt? (P ++ [Path.ofString r.file]) = none
  written : ∀ r ∈ results, r.outcome.isMerged → ∀ g, r.group? = some g → ∃ record,
    fs'.entryAt? (A ++ [Path.ofString g.text]) = some (.file (Utf8.encode (RowFormat.render record)))

namespace Touched

theorem nil (P A : Location) (fs : FileSystem) : Touched P A fs fs [] :=
  ⟨rfl, .refl fs, fun _ _ => rfl, fun _ h => absurd h List.not_mem_nil,
    fun _ h => absurd h List.not_mem_nil⟩

theorem of_unchanged (h : Unchanged fs fs') (hr : r.outcome.isMerged = false) :
    Touched P A fs fs' [r] := by
  have hnot : ∀ r' ∈ [r], ¬r'.outcome.isMerged = true := fun r' hr' => by
    rw [List.mem_singleton.1 hr', hr]
    exact Bool.false_ne_true
  exact ⟨h.workingDirectory, h.sameWays, fun l _ => h.kept l,
    fun r' hr' hm => absurd hm (hnot r' hr'), fun r' hr' hm => absurd hm (hnot r' hr')⟩

/-- A file is merged: its aggregate is written, and then it is removed. -/
theorem of_merged {saved : FileSystem} {record : Record} (hapart : P ≠ A)
    (h : Merged P A fs saved fs' file g record) :
    Touched P A fs fs' [⟨file, some g, .merged⟩] where
  workingDirectory := h.workingDirectory
  ways := h.ways
  kept l hl := by
    obtain ⟨hpublished, hgroup⟩ := hl _ (List.mem_singleton_self _) rfl
    exact (h.consume.kept l hpublished).trans (h.save.kept l (hgroup g rfl))
  removed r hr _ := by
    rw [List.mem_singleton.1 hr]
    exact h.consume.changed
  written r hr _ k hk := by
    obtain rfl := List.mem_singleton.1 hr
    obtain rfl := Option.some.inj hk
    exact ⟨record, (h.consume.kept _ (concat_ne hapart _ _).symm).trans h.save.changed⟩

/-- A file that is gone stays gone. -/
theorem still_removed {name : Bytes} (h : Touched P A fs fs' results) (hapart : P ≠ A)
    (hgone : fs.entryAt? (P ++ [name]) = none) : fs'.entryAt? (P ++ [name]) = none := by
  by_cases hagain : ∃ r ∈ results, r.outcome.isMerged = true ∧ Path.ofString r.file = name
  · obtain ⟨r, hr, hm, rfl⟩ := hagain
    exact h.removed r hr hm
  · rw [h.kept _ fun r hr hm => ⟨fun e => ?_, fun g _ => concat_ne hapart _ _⟩]
    · exact hgone
    · exact hagain ⟨r, hr, hm, (last_eq_of_concat_eq e).symm⟩

/-- An aggregate that was written is left or written again. -/
theorem still_written {name : Bytes} (h : Touched P A fs fs' results) (hapart : P ≠ A)
    (hwritten : ∃ record,
      fs.entryAt? (A ++ [name]) = some (.file (Utf8.encode (RowFormat.render record)))) :
    ∃ record, fs'.entryAt? (A ++ [name]) =
      some (.file (Utf8.encode (RowFormat.render record))) := by
  by_cases hagain : ∃ r ∈ results, r.outcome.isMerged = true ∧
      ∃ g, r.group? = some g ∧ Path.ofString g.text = name
  · obtain ⟨r, hr, hm, g, hg, rfl⟩ := hagain
    exact h.written r hr hm g hg
  · rw [h.kept _ fun r hr hm => ⟨(concat_ne hapart _ _).symm, fun g hg e => ?_⟩]
    · exact hwritten
    · exact hagain ⟨r, hr, hm, g, hg, (last_eq_of_concat_eq e).symm⟩

/-- First some files, then others. -/
theorem trans (hapart : P ≠ A) (h : Touched P A fs fs' results)
    (h' : Touched P A fs' fs'' results') : Touched P A fs fs'' (results ++ results') where
  workingDirectory := h'.workingDirectory.trans h.workingDirectory
  ways := h.ways.trans h'.ways
  kept l hl := by
    have hfirst := h.kept l fun r hr => hl r (List.mem_append_left _ hr)
    exact (h'.kept l fun r hr => hl r (List.mem_append_right _ hr)).trans hfirst
  removed r hr hm := by
    rcases List.mem_append.1 hr with hr | hr
    · exact h'.still_removed hapart (h.removed r hr hm)
    · exact h'.removed r hr hm
  written r hr hm g hg := by
    rcases List.mem_append.1 hr with hr | hr
    · exact h'.still_written hapart (h.written r hr hm g hg)
    · exact h'.written r hr hm g hg

/-- Only the results of merged files count. -/
theorem of_merged_mem (h : Touched P A fs fs' results)
    (hmerged : ∀ r ∈ results', r.outcome.isMerged = true → r ∈ results)
    (hall : ∀ r ∈ results, r ∈ results') : Touched P A fs fs' results' :=
  ⟨h.workingDirectory, h.ways, fun l hl => h.kept l fun r hr => hl r (hall r hr),
    fun r hr hm => h.removed r (hmerged r hr hm) hm, fun r hr hm => h.written r (hmerged r hr hm) hm⟩

end Touched

end DirectoryStore

theorem Outcome.not_merged_of_left {o : Outcome} (h : o.isSkipped = true ∨ o.isFailed = true) :
    o.isMerged = false := by
  cases o with
  | merged | planned => rcases h with h | h <;> cases h
  | skipped reason | failed reason => rfl

namespace Aggregator

open FileSystem DirectoryStore

variable {P A : Location} {a : Aggregator DirectoryStore} {file : String}

theorem mem_stage {σ : Type} [Storage σ] (a : Aggregator σ) (g k : GroupName) (r : Record) :
    k ∈ (a.stage g r).groups ↔ k = g ∨ k ∈ a.groups := by
  simp only [stage, Std.TreeMap.mem_insert, Std.LawfulEqCmp.compare_eq_iff_eq]
  rw [eq_comm]

/-- One file in a real run over two directories: nothing but its own entry and the aggregate
of its group is touched. -/
theorem attempt_touches (hreal : a.dryRun = false) (h : a.storage.StandsAt P A)
    (hname : IsEntryName (Path.ofString file)) :
    (∃ t files, a.attempt file = (t, { a with storage := { a.storage with files } }) ∧
      (t.outcome.isSkipped = true ∨ t.outcome.isFailed = true) ∧ Unchanged a.storage.files files) ∨
    ∃ g r files,
      a.attempt file = (.merged g, { a with storage := { a.storage with files } }.stage g r) ∧
      GroupName.ofFile file = .ok g ∧
      Touched P A a.storage.files files [⟨file, some g, .merged⟩] := by
  refine (attempt_on_disk hreal h.published h.aggregate hname).imp_right ?_
  rintro ⟨g, r, saved, files, hattempt, hg, hmerged⟩
  exact ⟨g, r, files, hattempt, hg, .of_merged h.apart hmerged⟩

/-- What is known of the results of files that were processed in order, and of the
aggregator after them. -/
structure Processed (P A : Location) (a : Aggregator DirectoryStore) (files : List String)
    (results : List FileResult) (last : Aggregator DirectoryStore) : Prop where
  published : last.storage.published = a.storage.published
  aggregate : last.storage.aggregate = a.storage.aggregate
  touched : Touched P A a.storage.files last.storage.files results
  files : results.map FileResult.file = files
  /-- A file is merged into its group, skipped or failed. -/
  fate : ∀ r ∈ results, (r.outcome.isMerged = true ∧ ∃ g, r.group? = some g ∧
      GroupName.ofFile r.file = .ok g) ∨ r.outcome.isSkipped = true ∨ r.outcome.isFailed = true
  groups : ∀ g, g ∈ last.groups ↔
    g ∈ a.groups ∨ ∃ r ∈ results, r.outcome.isMerged = true ∧ r.group? = some g

theorem Processed.staysPut {files : List String} {results : List FileResult}
    {last : Aggregator DirectoryStore} (h : Processed P A a files results last) :
    StaysPut a.storage last.storage :=
  ⟨h.published, h.aggregate, h.touched.workingDirectory, h.touched.ways⟩

theorem processed_cons {rest : List String} {results : List FileResult} {t : Attempt}
    {b last : Aggregator DirectoryStore} (hapart : P ≠ A)
    (hfirst : Processed P A a [file] [t.result file] b) (hrest : Processed P A b rest results last) :
    Processed P A a (file :: rest) (t.result file :: results) last where
  published := hrest.published.trans hfirst.published
  aggregate := hrest.aggregate.trans hfirst.aggregate
  touched := hfirst.touched.trans hapart hrest.touched
  files := by rw [List.map_cons, hrest.files]; rfl
  fate r hr := by
    rcases List.mem_cons.1 hr with rfl | hr
    · exact hfirst.fate _ (List.mem_singleton_self _)
    · exact hrest.fate r hr
  groups g := by
    rw [hrest.groups, hfirst.groups, or_assoc]
    simp

theorem processed_attempt (hreal : a.dryRun = false) (h : a.storage.StandsAt P A)
    (hname : IsEntryName (Path.ofString file)) :
    Processed P A a [file] [(a.attempt file).1.result file] (a.attempt file).2 := by
  rcases attempt_touches hreal h hname with ⟨t, files, hattempt, hleft, hsame⟩ |
    ⟨g, r, files, hattempt, hg, htouched⟩
  · have hmerged : t.outcome.isMerged = false := Outcome.not_merged_of_left hleft
    rw [hattempt]
    refine ⟨rfl, rfl, .of_unchanged hsame hmerged, rfl, fun r hr => ?_, fun g => ?_⟩
    · rw [List.mem_singleton.1 hr]
      exact Or.inr hleft
    · simp [Attempt.result, hmerged]
  · rw [hattempt]
    refine ⟨rfl, rfl, htouched, rfl, fun r hr => ?_, fun k => ?_⟩
    · rw [List.mem_singleton.1 hr]
      exact Or.inl ⟨rfl, g, rfl, hg⟩
    · rw [mem_stage, or_comm]
      refine or_congr_right ⟨?_, ?_⟩
      · rintro rfl
        exact ⟨_, List.mem_singleton_self _, rfl, rfl⟩
      · rintro ⟨r, hr, -, hk⟩
        rw [List.mem_singleton.1 hr] at hk
        exact (Option.some.inj hk).symm

/-- **Files in a real run on disk.** -/
theorem processed_processAll {files : List String} (hreal : a.dryRun = false)
    (h : a.storage.StandsAt P A) (hnames : ∀ file ∈ files, IsEntryName (Path.ofString file)) :
    Processed P A a files (a.processAll files).1 (a.processAll files).2 := by
  induction files generalizing a with
  | nil => exact ⟨rfl, rfl, .nil P A _, rfl, fun _ hr => absurd hr List.not_mem_nil, fun g => by
      simp [processAll]⟩
  | cons file rest ih =>
    have hfirst := processed_attempt hreal h (hnames file (List.mem_cons_self ..))
    exact processed_cons h.apart hfirst (ih ((dryRun_attempt a file).trans hreal)
      (hfirst.staysPut.standsAt h) fun f hf => hnames f (List.mem_cons_of_mem _ hf))

/-- What a real run over a storage in two directories `P` and `A` leaves behind. -/
structure Footprint (P A : Location) (s : DirectoryStore) (report : Report) (after : DirectoryStore) :
    Prop where
  /-- Nothing but merged files and the aggregates of the reported groups is touched. -/
  kept : ∀ l, (∀ r ∈ report.files, r.outcome.isMerged → l ≠ P ++ [Path.ofString r.file]) →
    (∀ summary ∈ report.groups, l ≠ A ++ [Path.ofString summary.group.text]) →
    after.files.entryAt? l = s.files.entryAt? l
  workingDirectory : after.files.workingDirectory = s.files.workingDirectory
  /-- The reported groups are those that files were merged into. -/
  groups : ∀ g, (∃ summary ∈ report.groups, summary.group = g) ↔
    ∃ r ∈ report.files, r.outcome.isMerged ∧ r.group? = some g
  removed : ∀ r ∈ report.files, r.outcome.isMerged →
    after.files.entryAt? (P ++ [Path.ofString r.file]) = none
  written : ∀ summary ∈ report.groups, ∃ text record, RowFormat.HasThreeLines text ∧
    text = RowFormat.render record ∧
    after.files.entryAt? (A ++ [Path.ofString summary.group.text]) = some (.file (Utf8.encode text))
  /-- No temporary file is left, nor is one that was there touched. -/
  temporary : ∀ d n, after.files.entryAt? (d ++ [Replacement.temporaryName n]) =
    s.files.entryAt? (d ++ [Replacement.temporaryName n])
  /-- A new scan lists exactly the files that were skipped or failed. -/
  rescan : ∃ scan, after.files.scan? s.published = some scan ∧
    (scan.files.map PendingFile.name ++ scan.unusable.map Unusable.name).Perm
      ((report.files.filter fun r => r.outcome.isSkipped || r.outcome.isFailed).map FileResult.file)

/-- The name is that of a file that was merged. -/
def isGone (results : List FileResult) (name : Bytes) : Bool :=
  results.any fun r => r.outcome.isMerged && Path.ofString r.file == name

theorem isGone_iff {results : List FileResult} {name : Bytes} : isGone results name = true ↔
    ∃ r ∈ results, r.outcome.isMerged = true ∧ Path.ofString r.file = name := by
  simp [isGone]

section Rescan

variable {fs fs' : FileSystem} {results : List FileResult} {root : Path}

/-- Of the entries in `P` those of the merged files are gone, and the others are as they were. -/
theorem entryAt?_of_touched (h : Touched P A fs fs' results) (hapart : P ≠ A) (name : Bytes) :
    fs'.entryAt? (P ++ [name]) =
      if isGone results name then none else fs.entryAt? (P ++ [name]) := by
  split
  · rename_i hgone
    obtain ⟨r, hr, hm, rfl⟩ := isGone_iff.1 hgone
    exact h.removed r hr hm
  · rename_i hgone
    exact h.kept _ fun r hr hm => ⟨fun e => hgone (isGone_iff.2 ⟨r, hr, hm, (last_eq_of_concat_eq e).symm⟩),
      fun g _ => concat_ne hapart _ _⟩

/-- The names that are left are those of the files that were not merged. -/
theorem children_of_touched (h : Touched P A fs fs' results) (hapart : P ≠ A) :
    fs'.children P = (fs.children P).filter fun name => !isGone results name := by
  refine children_eq (fun name => ?_) ((ordered_children fs P).filter _)
  rw [List.mem_filter, mem_children, entryAt?_of_touched h hapart]
  cases isGone results name <;> simp

/-- What is left is listed as before. -/
theorem listed?_of_touched (h : Touched P A fs fs' results) (hapart : P ≠ A) :
    (Scan.findingsOf fs' root P (fs'.children P)).filterMap Scan.Finding.listed? =
      (Scan.findingsOf fs root P ((fs.children P).filter fun name => !isGone results name)).filterMap
        Scan.Finding.listed? := by
  rw [children_of_touched h hapart, Scan.findingsOf, Scan.findingsOf, List.filterMap_map,
    List.filterMap_map]
  refine List.filterMap_congr fun name hname => ?_
  have hleft := (List.mem_filter.1 hname).2
  refine Scan.listed?_congr h.ways h.workingDirectory ?_
  rw [entryAt?_of_touched h hapart, if_neg (by simpa using hleft)]

/-- Results of different files: those that were not merged are left. -/
theorem filter_left (hnodup : (results.map FileResult.file).Nodup)
    (hfate : ∀ r ∈ results, r.outcome.isMerged = true ∨
      r.outcome.isSkipped = true ∨ r.outcome.isFailed = true) :
    (results.filter fun r => r.outcome.isSkipped || r.outcome.isFailed).map FileResult.file =
      (results.map FileResult.file).filter fun file => !isGone results (Path.ofString file) := by
  rw [List.filter_map]
  refine congrArg _ (List.filter_congr fun r hr => ?_)
  cases hm : r.outcome.isMerged with
  | true =>
    have hgone := isGone_iff.2 ⟨r, hr, hm, rfl⟩
    have hnot : (r.outcome.isSkipped || r.outcome.isFailed) = false := by
      cases ho : r.outcome <;> simp_all [Outcome.isMerged, Outcome.isSkipped, Outcome.isFailed]
    simp [hgone, hnot]
  | false =>
    have hleft : (r.outcome.isSkipped || r.outcome.isFailed) = true := by
      rw [Bool.or_eq_true]
      exact (hfate r hr).resolve_left (by simp [hm])
    have hgone : isGone results (Path.ofString r.file) = false := by
      refine Bool.eq_false_iff.2 fun hgone => ?_
      obtain ⟨r', hr', hm', hfile⟩ := isGone_iff.1 hgone
      obtain rfl := List.inj_on_of_nodup_map hnodup hr' hr (Utf8.encode_injective hfile)
      rw [hm] at hm'
      cases hm'
    simp [hgone, hleft]

end Rescan

theorem mem_summaries {σ : Type} [Storage σ] (a : Aggregator σ) (g : GroupName) :
    (∃ summary ∈ a.summaries, summary.group = g) ↔ g ∈ a.groups := by
  rw [← Std.TreeMap.mem_keys, ← Std.TreeMap.map_fst_toList_eq_keys, summaries]
  simp only [List.mem_map, exists_exists_and_eq_and]
  rfl

section Results

variable {s : DirectoryStore} {results : List FileResult} {findings : List Scan.Finding}
  (hfindings : findings = Scan.findingsOf s.files s.published P (s.files.children P))
  (hfiles : results.map FileResult.file = Scan.pendingNames findings)

include hfindings hfiles

/-- A file with a result was found pending. -/
theorem exists_pending_of_result {r : FileResult} (hr : r ∈ results) :
    Path.ofString r.file ∈ s.files.children P ∧ Scan.isHidden (Path.ofString r.file) = false ∧
      ∃ file, Scan.inspect s.files s.published P (Path.ofString r.file) = .pending file := by
  have hpending : r.file ∈ Scan.pendingNames findings := hfiles ▸ List.mem_map_of_mem hr
  rw [hfindings] at hpending
  exact Scan.exists_pending_of_mem hpending

/-- No file has two results. -/
theorem nodup_files : (results.map FileResult.file).Nodup := by
  rw [hfiles, hfindings]
  exact Scan.nodup_pendingNames (nodup_children _ _)

end Results

section Reported

variable {results : List FileResult} {last : Aggregator DirectoryStore} {report : Report}
  {findings : List Scan.Finding}
  (h : Processed P A { a with groups := ∅ } (Scan.pendingNames findings) results last)
  (hfindings : findings =
    Scan.findingsOf a.storage.files a.storage.published P (a.storage.files.children P))
  (hfiles : report.files.Perm
    ((findings.filterMap Scan.Finding.unusable?).map unusableResult ++ results))

include h hfindings

theorem Processed.pending {r : FileResult} (hr : r ∈ results) :
    Scan.isHidden (Path.ofString r.file) = false ∧ ∃ file, Scan.inspect a.storage.files
      a.storage.published P (Path.ofString r.file) = .pending file :=
  (exists_pending_of_result hfindings h.files hr).2

include hfiles

/-- **A new scan lists what was not merged.** -/
theorem Processed.rescan (hstands : a.storage.StandsAt P A) :
    ∃ scan, last.storage.files.scan? a.storage.published = some scan ∧
      (scan.files.map PendingFile.name ++ scan.unusable.map Unusable.name).Perm
        ((report.files.filter fun r => r.outcome.isSkipped || r.outcome.isFailed).map
          FileResult.file) := by
  have hnodup := nodup_files hfindings h.files
  have hgone : ∀ name ∈ a.storage.files.children P, (!isGone results name) = false →
      ∃ file, Scan.inspect a.storage.files a.storage.published P name = .pending file := by
    intro name _ hname
    obtain ⟨r, hr, -, rfl⟩ := isGone_iff.1 (by simpa using hname)
    exact (h.pending hfindings hr).2
  have hfind : last.storage.files.find a.storage.published = .ok (P, .directory) :=
    (find_eq_directory_of_sameWays h.touched.ways h.touched.workingDirectory).2
      (find_eq_directory_iff.2 hstands.published)
  have hleft := filter_left hnodup fun r hr => (h.fate r hr).imp_left And.left
  have hunusable : ((findings.filterMap Scan.Finding.unusable?).map unusableResult).filter
      (fun r => r.outcome.isSkipped || r.outcome.isFailed) =
        (findings.filterMap Scan.Finding.unusable?).map unusableResult := by
    refine List.filter_eq_self.2 fun r hr => ?_
    obtain ⟨entry, -, rfl⟩ := List.mem_map.1 hr
    rfl
  have hreport := (hfiles.filter fun r => r.outcome.isSkipped || r.outcome.isFailed).map FileResult.file
  rw [List.filter_append, hunusable, List.map_append, hleft, List.map_map] at hreport
  refine ⟨_, scan?_of_find hfind, (Scan.perm_listed _).trans ?_⟩
  rw [listed?_of_touched h.touched hstands.apart]
  refine (Scan.perm_listed _).symm.trans ?_
  rw [Scan.pendingNames_filter, Scan.unusable_filter hgone, ← hfindings, ← h.files]
  exact List.perm_append_comm.trans hreport.symm

/-- The footprint follows from what is known of the files that were processed. -/
theorem Processed.footprint (hstands : a.storage.StandsAt P A)
    (hgroups : report.groups = last.summaries) : Footprint P A a.storage report last.storage := by
  have hmerged : ∀ r ∈ report.files, r.outcome.isMerged = true → r ∈ results := fun r hr hm => by
    rcases List.mem_append.1 (hfiles.mem_iff.1 hr) with hr | hr
    · obtain ⟨entry, -, rfl⟩ := List.mem_map.1 hr
      cases hm
    · exact hr
  have htouched : Touched P A a.storage.files last.storage.files report.files :=
    h.touched.of_merged_mem hmerged fun r hr => hfiles.mem_iff.2 (List.mem_append_right _ hr)
  have hgroup : ∀ g, (∃ summary ∈ report.groups, summary.group = g) ↔
      ∃ r ∈ report.files, r.outcome.isMerged = true ∧ r.group? = some g := fun g => by
    rw [hgroups, mem_summaries, h.groups]
    constructor
    · rintro (hnone | ⟨r, hr, hm⟩)
      · exact absurd hnone Std.TreeMap.not_mem_emptyc
      · exact ⟨r, hfiles.mem_iff.2 (List.mem_append_right _ hr), hm⟩
    · rintro ⟨r, hr, hm, hg⟩
      exact Or.inr ⟨r, hmerged r hr hm, hm, hg⟩
  refine ⟨fun l hfile haggregate => ?_, htouched.workingDirectory, hgroup, htouched.removed,
    fun summary hsummary => ?_, fun d n => ?_, h.rescan hfindings hfiles hstands⟩
  · refine htouched.kept l fun r hr hm => ⟨hfile r hr hm, fun g hg => ?_⟩
    obtain ⟨summary, hsummary, rfl⟩ := (hgroup g).2 ⟨r, hr, hm, hg⟩
    exact haggregate summary hsummary
  · obtain ⟨r, hr, hm, hg⟩ := (hgroup _).1 ⟨summary, hsummary, rfl⟩
    obtain ⟨record, hrecord⟩ := htouched.written r hr hm _ hg
    exact ⟨_, record, RowFormat.hasThreeLines_render record, rfl, hrecord⟩
  · -- Temporary files are hidden, and neither pending files nor their groups are.
    have hhidden := Replacement.isHidden_temporaryName n
    refine htouched.kept _ fun r hr hm => ?_
    have hfile := (h.pending hfindings (hmerged r hr hm)).1
    refine ⟨fun e => ?_, fun g hg e => ?_⟩
    · rw [last_eq_of_concat_eq e, hfile] at hhidden
      cases hhidden
    · rcases h.fate r (hmerged r hr hm) with ⟨-, g', hg', hown⟩ | hleft
      · obtain rfl := Option.some.inj (hg.symm.trans hg')
        rw [last_eq_of_concat_eq e, Path.ofString, GroupName.isHidden_of_ofFile hown] at hhidden
        rw [Path.ofString, hhidden] at hfile
        cases hfile
      · rw [Outcome.not_merged_of_left hleft] at hm
        cases hm

end Reported

/-- A real run over two directories processes the pending files in order. -/
theorem exists_processed (hreal : a.dryRun = false) (hstands : a.storage.StandsAt P A)
    (hnames : ∀ name, a.storage.files.entryAt? (P ++ [name]) ≠ none → IsEntryName name)
    (runDate : Moment) (duration : Binary64) : ∃ report results last findings,
      findings = Scan.findingsOf a.storage.files a.storage.published P (a.storage.files.children P) ∧
      a.run runDate duration = (.ok report, { last with groups := ∅ }) ∧
      Processed P A { a with groups := ∅ } (Scan.pendingNames findings) results last ∧
      report.files.Perm ((findings.filterMap Scan.Finding.unusable?).map unusableResult ++ results) ∧
      report.groups = last.summaries := by
  obtain ⟨report, hrun, hfiles, hgroups⟩ := run_of_listing hstands.ensureReady
    (listPending_of_reaches hstands.published) runDate duration
  have hpending : ∀ file ∈ Scan.pendingNames (Scan.findingsOf a.storage.files a.storage.published P
      (a.storage.files.children P)), IsEntryName (Path.ofString file) := fun file hfile =>
    isEntryName_of_pending hnames hfile
  exact ⟨report, _, _, _, rfl, hrun, processed_processAll (a := { a with groups := ∅ }) hreal hstands
    hpending, hfiles ▸ perm_sortResults _, hgroups⟩

/-- **The footprint of a real run.**  For every tree and any paths that lead to two
different directories in it, a real run changes nothing but the entries of the files it
merges, which are gone, and the aggregates of their groups, which are files of three
lines; no temporary file is left, and a new scan lists exactly the names that are reported
as skipped or failed. -/
theorem run_footprint (hreal : a.dryRun = false) (hnames : a.storage.files.IsProperlyNamed)
    (hpublished : a.storage.files.find a.storage.published = .ok (P, .directory))
    (haggregate : a.storage.files.find a.storage.aggregate = .ok (A, .directory)) (hapart : P ≠ A)
    (runDate : Moment) (duration : Binary64) :
    ∃ report last, a.run runDate duration = (.ok report, last) ∧
      Footprint P A a.storage report last.storage := by
  have hstands := standsAt_of_find hpublished haggregate hapart
  obtain ⟨report, results, last, findings, hfindings, hrun, hprocessed, hperm, hgroups⟩ :=
    exists_processed hreal hstands (fun _ => hnames.isEntryName) runDate duration
  exact ⟨report, _, hrun, hprocessed.footprint hfindings hperm hstands hgroups⟩

/-- A published file, a link to it that dangles once the file is merged, and a file whose
group has a socket in the place of its aggregate. -/
theorem run_footprint_links :
    let place (directory : String) : Location := [Utf8.encode directory]
    let inside (directory name : String) : Location := [Utf8.encode directory, Utf8.encode name]
    let content := Utf8.encode "1\n0.5\n\n"
    let fs := ((((((FileSystem.mk ∅ []).insert (place "in") .directory).insert (place "out")
      .directory).insert (inside "in" "app_1") (.file content)).insert (inside "in" "web_1")
      (.file content)).insert (inside "in" "web_2") (.link (Utf8.encode "web_1"))).insert
      (inside "out" "app") .socket
    let a := new (DirectoryStore.mk fs (Path.ofString "/in") (Path.ofString "/out")) false
    fs.IsProperlyNamed ∧ fs.find (Path.ofString "/in") = .ok (place "in", .directory) ∧
    fs.find (Path.ofString "/out") = .ok (place "out", .directory) ∧ place "in" ≠ place "out" ∧
    ∃ report last, a.run ⟨0, 0⟩ (.zero false) = (.ok report, last) ∧
      Footprint (place "in") (place "out") a.storage report last.storage := by
  intro place inside content fs a
  have hnames : fs.IsProperlyNamed := isProperlyNamed_of_keys (by decide +kernel)
  have hpublished : fs.find (Path.ofString "/in") = .ok (place "in", .directory) := by decide +kernel
  have haggregate : fs.find (Path.ofString "/out") = .ok (place "out", .directory) := by
    decide +kernel
  have hapart : place "in" ≠ place "out" := by decide +kernel
  exact ⟨hnames, hpublished, haggregate, hapart,
    run_footprint rfl hnames hpublished haggregate hapart ⟨0, 0⟩ (.zero false)⟩

end Aggregator
end Rollup
