/-
# Published files and aggregates are kept apart

Runs write aggregates, and later runs take what is published then.  If the published files and the
aggregates lie in two different directories, no run writes an entry that is published
(`DirectoryStore.Leaves`).  A published link may still lead to what a run writes or removes, and
this shows on the trail that it has before the run.  A skipped file whose trail meets nothing that
the run touched has the content that it had, and a file that a later run finds pending is an
aggregate only if it is a link on whose trail the aggregate was, whatever runs there were in between
and whatever was published since (`Program.runs_keep_apart`).

Settings are checked by the components of the two paths, which tells whether the directories
differ in one direction only.  Paths to different directories are not alike
(`FileSystem.Reaches.eq_of_alike`), so they always pass.  Two spellings of one directory pass
as well, and then an aggregate is taken for a published file
(`Program.spellings_are_not_kept_apart`).
-/

import Rollup.Proofs.FileSystem.Components
import Rollup.Proofs.FileSystem.Trail
import Rollup.Proofs.Program.Execution
import Rollup.Proofs.Run.Footprint

namespace Rollup

/-- **Paths that are alike lead to one directory**, if to any. -/
theorem FileSystem.Reaches.eq_of_alike {fs : FileSystem} {p q : Path} {k m : Nat} {l c : Location}
    (h : fs.Reaches p k l) (h' : fs.Reaches q m c) (halike : Path.alike p q = true) : l = c := by
  obtain ⟨hhead, hnames⟩ := Path.alike_iff.1 halike
  have hway := h.way.of_names hnames.symm
  have hstart : (Walk.ofPath fs.workingDirectory p).directory =
      (Walk.ofPath fs.workingDirectory q).directory := by
    rw [Walk.ofPath, Walk.ofPath, Path.isAbsolute_of_head_eq hhead]
  have hend : fs.walk .find linkLimit ⟨_, Path.steps q, false⟩ = .ok (.present c .directory) :=
    h'.way.walk
  exact (hstart ▸ hway).eq_of_walk hend

/-! ### What a run leaves of the published files -/

namespace Aggregator

variable {σ : Type} [Storage σ] {a : Aggregator σ} {files : List String} {results : List FileResult}
  {report : Report}

/-- In a dry run nothing is merged. -/
theorem not_merged_of_dryRun {r : FileResult} (hdry : a.dryRun = true)
    (hr : r ∈ (a.processAll files).1) : r.outcome.isMerged = false := by
  induction files generalizing a with
  | nil => cases hr
  | cons file rest ih =>
    rcases List.mem_cons.1 hr with rfl | hr
    · show (a.attempt file).1.outcome.isMerged = false
      rw [attempt_eq]
      split
      · rename_i t ht
        have hunmerged := (accept_eq_error_iff.1 ht).isUnmerged
        exact Outcome.not_merged_of_left (hunmerged.imp_right And.left)
      · rw [settle, if_pos hdry]
        rfl
    · exact ih ((dryRun_attempt a file).trans hdry) hr

theorem isGone_of_dryRun (hdry : a.dryRun = true) (name : Bytes) :
    isGone (a.processAll files).1 name = false := by
  refine Bool.eq_false_iff.2 fun hgone => ?_
  obtain ⟨r, hr, hm, -⟩ := isGone_iff.1 hgone
  rw [not_merged_of_dryRun hdry hr] at hm
  cases hm

/-- Entries that cannot be read are not merged. -/
theorem isGone_of_perm {unusable : List Unusable}
    (h : report.files.Perm (unusable.map unusableResult ++ results)) (name : Bytes) :
    isGone report.files name = isGone results name := by
  rw [Bool.eq_iff_iff, isGone_iff, isGone_iff]
  constructor
  · rintro ⟨r, hr, hm, hname⟩
    rcases List.mem_append.1 (h.mem_iff.1 hr) with hr | hr
    · obtain ⟨entry, -, rfl⟩ := List.mem_map.1 hr
      cases hm
    · exact ⟨r, hr, hm, hname⟩
  · rintro ⟨r, hr, hm, hname⟩
    exact ⟨r, h.mem_iff.2 (List.mem_append_right _ hr), hm, hname⟩

end Aggregator

namespace DirectoryStore

open FileSystem Aggregator

variable {P A : Location} {s t after : DirectoryStore} {report : Report} {name : Bytes}

/-- The place is that of a merged file or of the aggregate of a reported group. -/
inductive IsTouched (P A : Location) (report : Report) : Location → Prop
  | merged {r : FileResult} (reported : r ∈ report.files) (merged : r.outcome.isMerged = true) :
      IsTouched P A report (P ++ [Path.ofString r.file])
  | aggregate {summary : GroupSummary} (reported : summary ∈ report.groups) :
      IsTouched P A report (A ++ [Path.ofString summary.group.text])

/-- No link is made. -/
def NoLinkAdded (fs fs' : FileSystem) : Prop :=
  ∀ l target, fs'.entryAt? l = some (.link target) → fs.entryAt? l = some (.link target)

/-- What a run leaves of the files published in `P`. -/
structure Leaves (P A : Location) (s : DirectoryStore) (report : Report) (after : DirectoryStore) :
    Prop where
  put : StaysPut s after
  kept : ∀ l, ¬IsTouched P A report l → after.files.entryAt? l = s.files.entryAt? l
  links : NoLinkAdded s.files after.files
  /-- The entries of merged files are gone, and the others are as they were. -/
  entries : ∀ name, after.files.entryAt? (P ++ [name]) =
    if isGone report.files name then none else s.files.entryAt? (P ++ [name])
  /-- The report is made of what a scan lists. -/
  reported : ∃ results findings, findings = Scan.findingsOf s.files s.published P (s.files.children P) ∧
    results.map FileResult.file = Scan.pendingNames findings ∧
    report.files.Perm ((findings.filterMap Scan.Finding.unusable?).map unusableResult ++ results)

namespace NoLinkAdded

variable {fs fs' fs'' : FileSystem}

theorem refl (fs : FileSystem) : NoLinkAdded fs fs := fun _ _ h => h

theorem trans (h : NoLinkAdded fs fs') (h' : NoLinkAdded fs' fs'') : NoLinkAdded fs fs'' :=
  fun l target he => h l target (h' l target he)

/-- Removing an entry or putting a file there makes no link. -/
theorem of_changed {l : Location} {what : Option Entry} (h : Changed fs fs' l what)
    (hlink : ∀ target, what ≠ some (.link target)) : NoLinkAdded fs fs' := fun c target he => by
  by_cases hc : c = l
  · rw [hc, h.changed] at he
    exact absurd he (hlink target)
  · rwa [h.kept c hc] at he

end NoLinkAdded

/-- What a real run does not touch is kept, and where it does, there is no link. -/
theorem kept_of_footprint (h : Footprint P A s report after) :
    (∀ l, ¬IsTouched P A report l → after.files.entryAt? l = s.files.entryAt? l) ∧
      NoLinkAdded s.files after.files := by
  have hkept : ∀ l, ¬IsTouched P A report l → after.files.entryAt? l = s.files.entryAt? l :=
    fun l hl => h.kept l (fun r hr hm e => hl (e ▸ .merged hr hm)) fun g hg e => hl (e ▸ .aggregate hg)
  refine ⟨hkept, fun l target he => ?_⟩
  by_cases htouched : IsTouched P A report l
  · cases htouched with
    | merged hr hm => cases (h.removed _ hr hm).symm.trans he
    | aggregate hsummary =>
      obtain ⟨text, record, -, -, hwritten⟩ := h.written _ hsummary
      cases hwritten.symm.trans he
  · exact (hkept l htouched).symm.trans he

/-- **A run over two directories writes nothing that is published**, in either mode. -/
theorem exists_leaves {a : Aggregator DirectoryStore} (hstands : a.storage.StandsAt P A)
    (hnames : ∀ name, a.storage.files.entryAt? (P ++ [name]) ≠ none → IsEntryName name)
    (runDate : Moment) (duration : Binary64) : ∃ report last,
      a.run runDate duration = (.ok report, last) ∧ Leaves P A a.storage report last.storage := by
  cases hmode : a.dryRun with
  | true =>
    obtain ⟨report, hrun, hfiles, -⟩ := run_of_listing hstands.ensureReady
      (listPending_of_reaches hstands.published) runDate duration
    have hsame := storage_run_of_dryRun hmode runDate duration
    have hperm := hfiles ▸ perm_sortResults _
    refine ⟨report, _, hrun, ?_⟩
    rw [hrun] at hsame
    rw [hsame]
    refine ⟨.refl _, fun _ _ => rfl, .refl _, fun name => ?_, _, _, rfl, map_file_processAll _ _,
      hperm⟩
    rw [isGone_of_perm hperm, isGone_of_dryRun (a := { a with groups := ∅ }) hmode]
    rfl
  | false =>
    obtain ⟨report, results, last, findings, hfindings, hrun, hprocessed, hperm, hgroups⟩ :=
      exists_processed hmode hstands hnames runDate duration
    obtain ⟨hkept, hlinks⟩ :=
      kept_of_footprint (hprocessed.footprint hfindings hperm hstands hgroups)
    refine ⟨report, _, hrun, hprocessed.staysPut, hkept, hlinks, fun name => ?_, results, findings,
      hfindings, hprocessed.files, hperm⟩
    rw [isGone_of_perm hperm]
    exact entryAt?_of_touched hprocessed.touched hstands.apart name

namespace Leaves

variable (h : Leaves P A s report after)

include h

/-- What is not reported as merged is left: the entry that a result is about is as it was. -/
theorem exists_left {r : FileResult} (hr : r ∈ report.files) (hm : r.outcome.isMerged = false) :
    ∃ name entry, Utf8.display name = r.file ∧ s.files.entryAt? (P ++ [name]) = some entry ∧
      after.files.entryAt? (P ++ [name]) = some entry := by
  suffices hname : ∃ name, Utf8.display name = r.file ∧ name ∈ s.files.children P ∧
      isGone report.files name = false by
    obtain ⟨name, hdisplay, hchild, hleft⟩ := hname
    obtain ⟨entry, hentry⟩ := Option.ne_none_iff_exists'.1 (mem_children.1 hchild)
    exact ⟨name, entry, hdisplay, hentry, by rw [h.entries, hleft]; exact hentry⟩
  obtain ⟨results, findings, hfindings, hresults, hperm⟩ := h.reported
  simp only [isGone_of_perm hperm]
  rcases List.mem_append.1 (hperm.mem_iff.1 hr) with hr | hr
  · -- An entry that cannot be read is not pending.
    obtain ⟨entry, hentry, rfl⟩ := List.mem_map.1 hr
    obtain ⟨finding, hfinding, hunusable⟩ := List.mem_filterMap.1 hentry
    rw [hfindings] at hfinding
    obtain ⟨name, hchild, rfl⟩ := List.mem_map.1 hfinding
    refine ⟨name, (Scan.name_of_unusable hunusable).symm, hchild, Bool.eq_false_iff.2 fun hgone => ?_⟩
    obtain ⟨r, hr, -, rfl⟩ := isGone_iff.1 hgone
    obtain ⟨-, -, file, hfile⟩ := exists_pending_of_result hfindings hresults hr
    rw [hfile] at hunusable
    cases hunusable
  · -- No file is pending twice.
    obtain ⟨hchild, -⟩ := exists_pending_of_result hfindings hresults hr
    refine ⟨Path.ofString r.file, Utf8.display_encode r.file, hchild,
      Bool.eq_false_iff.2 fun hgone => ?_⟩
    obtain ⟨r', hr', hm', hfile⟩ := isGone_iff.1 hgone
    obtain rfl := List.inj_on_of_nodup_map (nodup_files hfindings hresults) hr' hr
      (Utf8.encode_injective hfile)
    rw [hm] at hm'
    cases hm'

/-- What is listed and left is reported, and not as merged. -/
theorem exists_result {text : String} (hchild : Utf8.encode text ∈ s.files.children P)
    (hlisted : (Scan.inspect s.files s.published P (Utf8.encode text)).listed? = some text)
    (hleft : isGone report.files (Utf8.encode text) = false) :
    ∃ r ∈ report.files, r.file = text ∧ r.outcome.isMerged = false := by
  obtain ⟨results, findings, hfindings, hresults, hperm⟩ := h.reported
  have hfinding : Scan.inspect s.files s.published P (Utf8.encode text) ∈ findings := by
    rw [hfindings]
    exact List.mem_map_of_mem hchild
  have hnames : text ∈ Scan.pendingNames findings ++
      (findings.filterMap Scan.Finding.unusable?).map Unusable.name :=
    (Scan.perm_listed findings).mem_iff.2 (List.mem_filterMap.2 ⟨_, hfinding, hlisted⟩)
  rcases List.mem_append.1 hnames with hpending | hunusable
  · rw [← hresults] at hpending
    obtain ⟨r, hr, rfl⟩ := List.mem_map.1 hpending
    have hreported := hperm.mem_iff.2 (List.mem_append_right _ hr)
    refine ⟨r, hreported, rfl, Bool.eq_false_iff.2 fun hm => ?_⟩
    cases hleft.symm.trans (isGone_iff.2 ⟨r, hreported, hm, rfl⟩)
  · obtain ⟨entry, hentry, rfl⟩ := List.mem_map.1 hunusable
    exact ⟨unusableResult entry,
      hperm.mem_iff.2 (List.mem_append_left _ (List.mem_map_of_mem hentry)), rfl, rfl⟩

end Leaves

/-! ### Later runs -/

/-- The storage after some runs, in any mode and at any time, between which files were published
in `P`; these are given with their contents, the latest first. -/
inductive Later (P : Location) (s : DirectoryStore) : List (Bytes × Bytes) → DirectoryStore → Prop
  | now : Later P s [] s
  | run {published : List (Bytes × Bytes)} {t : DirectoryStore} (before : Later P s published t)
      (dryRun : Bool) (runDate : Moment) (duration : Binary64) :
      Later P s published ((Aggregator.new t dryRun).run runDate duration).2.storage
  | publish {published : List (Bytes × Bytes)} {t : DirectoryStore} {name : Bytes} (content : Bytes)
      (before : Later P s published t) (proper : IsEntryName name)
      (free : t.files.entryAt? (P ++ [name]) = none) :
      Later P s ((name, content) :: published)
        { t with files := t.files.insert (P ++ [name]) (.file content) }

/-- What is in `P` was there before, or has been published since. -/
structure Continues (P : Location) (s : DirectoryStore) (published : List (Bytes × Bytes))
    (t : DirectoryStore) : Prop where
  put : StaysPut s t
  links : NoLinkAdded s.files t.files
  names : ∀ name, t.files.entryAt? (P ++ [name]) ≠ none → IsEntryName name
  entries : ∀ name entry, t.files.entryAt? (P ++ [name]) = some entry →
    s.files.entryAt? (P ++ [name]) = some entry ∨
      ∃ content, (name, content) ∈ published ∧ entry = .file content

namespace Continues

variable {published : List (Bytes × Bytes)}

theorem refl (hnames : ∀ name, s.files.entryAt? (P ++ [name]) ≠ none → IsEntryName name) :
    Continues P s [] s :=
  ⟨.refl s, .refl _, hnames, fun _ _ h => Or.inl h⟩

/-- A run adds nothing to what is published. -/
theorem run (h : Continues P s published t) (hleaves : Leaves P A t report after) :
    Continues P s published after := by
  have hsome : ∀ name entry, after.files.entryAt? (P ++ [name]) = some entry →
      t.files.entryAt? (P ++ [name]) = some entry := fun name entry he => by
    rw [hleaves.entries] at he
    split at he
    · cases he
    · exact he
  refine ⟨h.put.trans hleaves.put, h.links.trans hleaves.links, fun name he => ?_,
    fun name entry he => h.entries name entry (hsome name entry he)⟩
  obtain ⟨entry, he⟩ := Option.ne_none_iff_exists'.1 he
  exact h.names name (by simp [hsome name entry he])

/-- A further file is published. -/
theorem publish (h : Continues P s published t) (proper : IsEntryName name)
    (free : t.files.entryAt? (P ++ [name]) = none) (content : Bytes) :
    Continues P s ((name, content) :: published)
      { t with files := t.files.insert (P ++ [name]) (.file content) } := by
  have hchanged := Changed.insert t.files (.file content) (show P ++ [name] ≠ [] by simp)
  have hput : StaysPut t { t with files := t.files.insert (P ++ [name]) (.file content) } :=
    .of_sameWays (hchanged.sameWays (.of_vacant free) (.of_file hchanged.changed)) rfl
  refine ⟨h.put.trans hput, h.links.trans (.of_changed hchanged fun _ => nofun), fun other he => ?_,
    fun other entry he => ?_⟩
  · by_cases hother : other = name
    · exact hother ▸ proper
    · exact h.names other (by rwa [hchanged.kept _ fun e => hother (last_eq_of_concat_eq e)] at he)
  · by_cases hother : other = name
    · subst hother
      have hnew := hchanged.changed.symm.trans he
      exact Or.inr ⟨content, List.mem_cons_self .., (Option.some.inj hnew).symm⟩
    · rw [hchanged.kept _ fun e => hother (last_eq_of_concat_eq e)] at he
      refine (h.entries other entry he).imp_right ?_
      rintro ⟨c, hc, rfl⟩
      exact ⟨c, List.mem_cons_of_mem _ hc, rfl⟩

end Continues

/-- **Later on there is nothing in `P` that was not published.** -/
theorem Later.continues {published : List (Bytes × Bytes)} (h : Later P s published t)
    (hstands : s.StandsAt P A)
    (hnames : ∀ name, s.files.entryAt? (P ++ [name]) ≠ none → IsEntryName name) :
    Continues P s published t := by
  induction h with
  | now => exact .refl hnames
  | run before dryRun runDate duration ih =>
    obtain ⟨report, last, hrun, hleaves⟩ := exists_leaves (a := .new _ dryRun)
      (ih.put.standsAt hstands) ih.names runDate duration
    rw [hrun]
    exact ih.run hleaves
  | publish content before proper free ih => exact ih.publish proper free content

/-! ### Keeping apart -/

/-- A run keeps what is published in `P` apart from the aggregates in `A`. -/
structure KeepsApart (P A : Location) (s : DirectoryStore) (report : Report) (after : DirectoryStore) :
    Prop where
  /-- The entries of merged files are gone, and all others in `P` are as they were. -/
  published : ∀ name, after.files.entryAt? (P ++ [name]) =
    if isGone report.files name then none else s.files.entryAt? (P ++ [name])
  /-- What is not reported as merged, so also what is skipped, is as it was.  So is the content that
  it leads to if there is nothing on its trail that the run touched. -/
  left : ∀ r ∈ report.files, r.outcome.isMerged = false → ∃ name entry,
    Utf8.display name = r.file ∧ s.files.entryAt? (P ++ [name]) = some entry ∧
    after.files.entryAt? (P ++ [name]) = some entry ∧
    ((∀ l, s.files.Trail P [name] l → ¬IsTouched P A report l) → ∀ found,
      after.files.find (Path.join s.published name) = .ok found ↔
        s.files.find (Path.join s.published name) = .ok found)
  /-- What a later run finds pending stands for a file, and this is the aggregate of a reported group
  only if a link to it was published before the run.  It has been published since, or it is as it
  was before the run, which reported it and did not merge it. -/
  pending : ∀ published t, Later P after published t → ∃ listing,
    Storage.listPending t = .ok listing ∧ ∀ file ∈ listing.pending, ∃ place content,
      Scan.StandsFor t.files s.published P (Path.ofString file) place (.file content) ∧
      (∀ summary ∈ report.groups, place = A ++ [Path.ofString summary.group.text] →
        (∃ target, s.files.entryAt? (P ++ [Path.ofString file]) = some (.link target)) ∧
          s.files.Trail P [Path.ofString file] place) ∧
      ((place = P ++ [Path.ofString file] ∧ (Path.ofString file, content) ∈ published) ∨
        t.files.entryAt? (P ++ [Path.ofString file]) = s.files.entryAt? (P ++ [Path.ofString file]) ∧
          ∃ r ∈ report.files, r.file = file ∧ r.outcome.isMerged = false)

/-- **Only links stand for aggregates**, and only if these were on their trails before. -/
theorem link_of_aggregate {place : Location} {content x : Bytes} (hput : StaysPut s t)
    (hlinks : NoLinkAdded s.files t.files) (hstands : s.StandsAt P A) (hname : IsEntryName name)
    (h : Scan.StandsFor t.files s.published P name place (.file content)) (hplace : place = A ++ [x]) :
    (∃ target, s.files.entryAt? (P ++ [name]) = some (.link target)) ∧
      s.files.Trail P [name] place := by
  have htrail := (h.trail (hput.reaches hstands.published) hname).of_links hput.ways
    fun c target _ => hlinks c target
  cases h with
  | itself => exact absurd hplace (concat_ne hstands.apart _ _)
  | link child => exact ⟨⟨_, hlinks _ _ child⟩, htrail⟩

theorem Leaves.keepsApart (h : Leaves P A s report after) (hstands : s.StandsAt P A)
    (hnames : ∀ name, s.files.entryAt? (P ++ [name]) ≠ none → IsEntryName name) :
    KeepsApart P A s report after where
  published := h.entries
  left r hr hm := by
    obtain ⟨name, entry, hdisplay, hbefore, hafter⟩ := h.exists_left hr hm
    refine ⟨name, entry, hdisplay, hbefore, hafter, fun hmissed found => ?_⟩
    obtain ⟨k, hreach⟩ := hstands.published
    exact hreach.find_join_congr (hnames name (by simp [hbefore])) h.put.ways h.put.workingDirectory
      (fun l hl => h.kept l (hmissed l hl)) found
  pending published t hlater := by
    have hnames' := ((Continues.refl hnames).run h).names
    have hcontinues := hlater.continues (h.put.standsAt hstands) hnames'
    have hput := h.put.trans hcontinues.put
    have hlinks := h.links.trans hcontinues.links
    refine ⟨_, listPending_of_reaches (hput.standsAt hstands).published, fun file hfile => ?_⟩
    obtain ⟨hchild, -, found, hfound⟩ := Scan.exists_pending_of_mem hfile
    rw [hput.published] at hfound
    obtain ⟨place, content, hplace⟩ := Scan.exists_standsFor_of_pending hfound
    have hname := hcontinues.names _ (mem_children.1 hchild)
    refine ⟨place, content, hplace, fun summary _ haggregate =>
      link_of_aggregate hput hlinks hstands hname hplace haggregate, ?_⟩
    obtain ⟨entry, hentry⟩ := Option.ne_none_iff_exists'.1 (mem_children.1 hchild)
    rcases hcontinues.entries _ entry hentry with hkept | ⟨content', hnew, rfl⟩
    · right
      rw [h.entries] at hkept
      split at hkept
      · cases hkept
      rename_i hleft
      -- The entry is listed as before, since all ways are kept.
      have hsame := hentry.trans hkept.symm
      have hlisted : (Scan.inspect s.files s.published P (Utf8.encode file)).listed? =
          some file := by
        rw [← Scan.listed?_congr hput.ways hput.workingDirectory hsame, hfound]
        exact congrArg some (Utf8.encode_injective (Scan.name_of_pending hfound).1)
      exact ⟨hsame, h.exists_result (mem_children.2 (by simp [hkept])) hlisted
        (Bool.eq_false_iff.2 hleft)⟩
    · left
      cases hplace with
      | itself child =>
        obtain ⟨rfl⟩ := Entry.file.inj (Option.some.inj (child.symm.trans hentry))
        exact ⟨rfl, hnew⟩
      | link child => cases child.symm.trans hentry

end DirectoryStore

namespace Program

open FileSystem DirectoryStore

/-- **Published files and aggregates are kept apart.**  If the settings name two directories, and
they are different, the settings are valid, and every run over them leaves what is published to
itself and the aggregates out of what later runs find pending; as to published links, if there was
nothing on their trails that the run touched. -/
theorem runs_keep_apart {fs : FileSystem} {config : Config} (hnames : fs.IsProperlyNamed)
    (hready : Storage.ensureReady (DirectoryStore.mk fs config.published config.aggregate) = .ok ()) :
    ∃ P A, fs.find config.published = .ok (P, .directory) ∧
      fs.find config.aggregate = .ok (A, .directory) ∧
      (P ≠ A → config.validate = .ok () ∧ ∀ dryRun runDate duration, ∃ report last,
        (aggregator fs config dryRun).run runDate duration = (.ok report, last) ∧
        KeepsApart P A ⟨fs, config.published, config.aggregate⟩ report last.storage) := by
  obtain ⟨hpublished, haggregate⟩ := ensureReady_eq_ok_iff.1 hready
  obtain ⟨k, P, hP⟩ := isDirectory_iff.1 hpublished
  obtain ⟨m, A, hA⟩ := isDirectory_iff.1 haggregate
  refine ⟨P, A, find_eq_directory_iff.2 ⟨k, hP⟩, find_eq_directory_iff.2 ⟨m, hA⟩, fun hapart =>
    ⟨?_, fun dryRun runDate duration => ?_⟩⟩
  · refine Config.validate_eq_ok_iff.2 (Bool.eq_false_iff.2 fun halike => ?_)
    exact hapart (hP.eq_of_alike hA halike)
  · have hstands : (aggregator fs config dryRun).storage.StandsAt P A := ⟨⟨k, hP⟩, ⟨m, hA⟩, hapart⟩
    have hchildren : ∀ name, fs.entryAt? (P ++ [name]) ≠ none → IsEntryName name := fun _ =>
      hnames.isEntryName
    obtain ⟨report, last, hrun, hleaves⟩ := exists_leaves hstands hchildren runDate duration
    exact ⟨report, last, hrun, hleaves.keepsApart hstands hchildren⟩

/-- Two directories, and a link that is published in the one and leads past the other. -/
theorem runs_keep_apart_link :
    let place (directory : String) : Location := [Utf8.encode directory]
    let inside (directory name : String) : Location := [Utf8.encode directory, Utf8.encode name]
    let fs := ((((((FileSystem.mk ∅ []).insert (place "in") .directory).insert (place "out")
      .directory).insert (place "archive") .directory).insert (inside "in" "web_1")
      (.file (Utf8.encode "1\n\n\n"))).insert (inside "in" "app_1")
      (.link (Utf8.encode "../archive/app"))).insert (inside "archive" "app")
      (.file (Utf8.encode "2\n\n\n"))
    let config := { Config.default with
      published := Path.ofString "in", aggregate := Path.ofString "./out/" }
    fs.IsProperlyNamed ∧
    Storage.ensureReady (DirectoryStore.mk fs config.published config.aggregate) = .ok () ∧
    place "in" ≠ place "out" ∧
    (∀ l, fs.Trail (place "in") [Utf8.encode "app_1"] l →
      l = inside "in" "app_1" ∨ l = inside "archive" "app") ∧
    config.validate = .ok () ∧ ∀ dryRun runDate duration, ∃ report last,
      (aggregator fs config dryRun).run runDate duration = (.ok report, last) ∧
      KeepsApart (place "in") (place "out") ⟨fs, config.published, config.aggregate⟩ report
        last.storage := by
  intro place inside fs config
  have hnames : fs.IsProperlyNamed := isProperlyNamed_of_keys (by decide +kernel)
  have hready : Storage.ensureReady (DirectoryStore.mk fs config.published config.aggregate) =
    .ok () := by decide +kernel
  have hapart : place "in" ≠ place "out" := by decide +kernel
  obtain ⟨P, A, hpublished, haggregate, hruns⟩ := runs_keep_apart hnames hready
  have hin : fs.find config.published = .ok (place "in", .directory) := by decide +kernel
  have hout : fs.find config.aggregate = .ok (place "out", .directory) := by decide +kernel
  obtain ⟨rfl, -⟩ := Prod.mk.inj (Except.ok.inj (hpublished.symm.trans hin))
  obtain ⟨rfl, -⟩ := Prod.mk.inj (Except.ok.inj (haggregate.symm.trans hout))
  refine ⟨hnames, hready, hapart, fun l hl => ?_, hruns hapart⟩
  have hlink : fs.entryAt? (inside "in" "app_1") = some (.link (Utf8.encode "../archive/app")) := by
    decide +kernel
  have hfile : fs.entryAt? (inside "archive" "app") = some (.file (Utf8.encode "2\n\n\n")) := by
    decide +kernel
  have hwalk : fs.walk .find 0 ⟨place "in", [Path.dotDot, Utf8.encode "archive"], false⟩ =
      .ok (.present (place "archive") .directory) := by decide +kernel
  have hsteps : Walk.ofPath (place "in") (Utf8.encode "../archive/app") =
      ⟨place "in", [Path.dotDot, Utf8.encode "archive"] ++ [Utf8.encode "app"], false⟩ := by
    decide +kernel
  rcases Trail.concat_cases (show fs.Trail (place "in") ([] ++ [Utf8.encode "app_1"]) l from hl)
    (walk_nil : fs.walk .find 0 ⟨_, _, false⟩ = _) with rfl | ⟨target, he, hl⟩
  · exact Or.inl rfl
  · obtain rfl := Entry.link.inj (Option.some.inj (hlink.symm.trans he))
    rw [hsteps] at hl
    rcases hl.concat_cases hwalk with rfl | ⟨target, he, -⟩
    · exact Or.inr rfl
    · cases hfile.symm.trans he

/-- **Two spellings of a directory are not kept apart.**  The settings are valid, and one run saves
an aggregate over a file that it skips, which a later run finds pending. -/
theorem spellings_are_not_kept_apart :
    let inside (name : String) : Location := [Utf8.encode "data", Utf8.encode name]
    let fs := ((((FileSystem.mk ∅ []).insert [Utf8.encode "data"] .directory).insert
      (inside "a") (.file (Utf8.encode "9223372036854775807\n\n\n"))).insert
      (inside "a_b") (.file (Utf8.encode "1\n\n\n"))).insert
      (inside "a_b_1") (.file (Utf8.encode "2\n\n\n"))
    let config := { Config.default with
      published := Path.ofString "data", aggregate := Path.ofString "./data" }
    fs.IsTree ∧ config.validate = .ok () ∧
    Storage.ensureReady (DirectoryStore.mk fs config.published config.aggregate) = .ok () ∧
    fs.find config.published = .ok ([Utf8.encode "data"], .directory) ∧
    fs.find config.aggregate = .ok ([Utf8.encode "data"], .directory) ∧ ∃ report last,
      (aggregator fs config false).run ⟨0, 0⟩ (.zero false) = (.ok report, last) ∧
      (∃ r ∈ report.files, r.file = "a_b" ∧ r.outcome.isSkipped = true) ∧
      (∃ summary ∈ report.groups, summary.group.text = "a_b") ∧
      fs.entryAt? (inside "a_b") = some (.file (Utf8.encode "1\n\n\n")) ∧
      last.storage.files.entryAt? (inside "a_b") = some (.file (Utf8.encode "3\n\n\n")) ∧
      Storage.listPending last.storage = .ok ⟨["a", "a_b"], []⟩ := by
  intro inside fs config
  let b := aggregator fs config false
  have hready : Storage.ensureReady b.storage = .ok () := by decide +kernel
  have hlist : Storage.listPending b.storage = .ok ⟨["a", "a_b", "a_b_1"], []⟩ := by decide +kernel
  obtain ⟨report, hrun, hfiles, hgroups⟩ :=
    Aggregator.run_of_listing hready hlist ⟨0, 0⟩ (.zero false)
  let processed := b.processAll ["a", "a_b", "a_b_1"]
  -- Whether a name is usable is not decided by evaluation, so the groups are given.
  have hprocessed : (processed.1.any fun r => r.file == "a_b" && r.outcome.isSkipped) = true ∧
      (processed.2.summaries.any fun summary => summary.group.text == "a_b") = true ∧
      processed.2.storage.files.entryAt? (inside "a_b") = some (.file (Utf8.encode "3\n\n\n")) ∧
      Storage.listPending processed.2.storage = .ok ⟨["a", "a_b"], []⟩ := by
    have hnone : GroupName.ofFile "a" = .error (.missingSuffix "a") := by cbv
    have hshort : GroupName.ofFile "a_b" = .ok ⟨"a", by simp [isUsableName]⟩ := by cbv
    have hlong : GroupName.ofFile "a_b_1" = .ok ⟨"a_b", by simp [isUsableName]⟩ := by cbv
    simp only [processed, Aggregator.processAll, Aggregator.process, Aggregator.attempt, hnone,
      hshort, hlong]
    decide +kernel
  obtain ⟨hskipped, hsaved, hcontent, hpending⟩ := hprocessed
  simp only [List.any_eq_true, Bool.and_eq_true, beq_iff_eq] at hskipped hsaved
  obtain ⟨r, hr, hskipped⟩ := hskipped
  refine ⟨isTree_of_keys (by decide +kernel) (by decide +kernel) rfl, by decide +kernel, hready,
    by decide +kernel, by decide +kernel, report, _, hrun, ⟨r, ?_, hskipped⟩, ?_, by decide +kernel,
    hcontent, hpending⟩
  · rw [hfiles]
    exact (Aggregator.perm_sortResults _).mem_iff.2 (List.mem_append_right _ hr)
  · rw [hgroups]
    exact hsaved

end Program
end Rollup
