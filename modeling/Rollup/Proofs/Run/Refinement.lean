/-
# A run on disk refines a run in memory

A run over two directories that hold files only and the run over the storage in memory
that mirrors them go in step: before each file the directories hold the texts of the
storage in memory, the same groups are staged, and the paths of the directories lead where
they led (`Aggregator.InStep`).  So every file has the same fate in both, in a dry run as in
a real one; the one difference is the directory before the name in the reason for which a
text is refused (`FileResult.Agrees`).  In the end the directories hold the texts of the
storage in memory again, and nothing else has changed (`Aggregator.run_refines`).
-/

import Rollup.Proofs.Run.Calls
import Rollup.Proofs.Run.Results
import Rollup.Proofs.Run.Tracking
import Rollup.Proofs.Storage.Mirror

namespace Rollup

open FileSystem DirectoryStore

/-- A result over two directories and the result in memory: they are equal, but where a text
is refused, the one quotes its path and the other its name. -/
inductive FileResult.Agrees (published aggregate : Path) : FileResult → FileResult → Prop
  | same (r : FileResult) : Agrees published aggregate r r
  | content (file : String) (g : GroupName) (cause : RowFormat.FormatError) :
      Agrees published aggregate
        ⟨file, some g, .skipped
          (StorageError.malformed (Path.join published (Path.ofString file)) cause).message⟩
        ⟨file, some g, .skipped (StorageError.malformed (Path.ofString file) cause).message⟩
  | aggregate (file : String) (g : GroupName) (cause : RowFormat.FormatError) :
      Agrees published aggregate
        ⟨file, some g, .skipped
          (StorageError.malformed (Path.join aggregate (Path.ofString g.text)) cause).message⟩
        ⟨file, some g, .skipped (StorageError.malformed (Path.ofString g.text) cause).message⟩

namespace Aggregator

variable {P A : Location} {a a' a'' : Aggregator DirectoryStore} {b : Aggregator MemoryStore}
  {file : String} {g : GroupName}

/-- A run over two directories and a run in memory stand at the same point. -/
structure InStep (P A : Location) (a : Aggregator DirectoryStore) (b : Aggregator MemoryStore) :
    Prop where
  dryRun : a.dryRun = b.dryRun
  groups : a.groups = b.groups
  mirrors : Mirrors a.storage.files P A b.storage
  stands : a.storage.StandsAt P A
  rooted : a.storage.files.IsRooted
  readOnly : b.storage.readOnly = []
  locked : b.storage.locked = []

/-- What a run over two directories leaves as it is. -/
structure Advances (P A : Location) (a a' : Aggregator DirectoryStore) : Prop where
  published : a'.storage.published = a.storage.published
  aggregate : a'.storage.aggregate = a.storage.aggregate
  confined : Confined P A a.storage.files a'.storage.files

theorem Advances.refl (P A : Location) (a : Aggregator DirectoryStore) : Advances P A a a :=
  ⟨rfl, rfl, .refl P A _⟩

theorem Advances.trans (h : Advances P A a a') (h' : Advances P A a' a'') : Advances P A a a'' :=
  ⟨h'.published.trans h.published, h'.aggregate.trans h.aggregate, h.confined.trans h'.confined⟩

/-- Paths that were short enough stay so. -/
theorem Advances.fits {files : List String} (h : Advances P A a a') (hfits : a.storage.Fits files) :
    a'.storage.Fits files where
  published f hf := by
    rw [publishedPath, h.published]
    exact hfits.published f hf
  aggregate f hf g hg := by
    rw [aggregatePath, h.aggregate]
    exact hfits.aggregate f hf g hg
  temporary := by
    rw [h.aggregate, h.confined.workingDirectory]
    exact hfits.temporary

namespace InStep

theorem stage (h : InStep P A a b) (g : GroupName) (r : Record) :
    InStep P A (a.stage g r) (b.stage g r) where
  dryRun := h.dryRun
  groups := by simp only [Aggregator.stage, h.groups]
  mirrors := h.mirrors
  stands := h.stands
  rooted := h.rooted
  readOnly := h.readOnly
  locked := h.locked

/-- **Both runs merge into the same record**, or refuse the stored one for the same cause. -/
theorem currentAggregate (h : InStep P A a b) (hname : IsEntryName (Path.ofString g.text))
    (hshort : (a.storage.aggregatePath g).length < pathLimit) :
    (∃ r, a.currentAggregate g = .ok r ∧ b.currentAggregate g = .ok r) ∨
    ∃ cause, a.currentAggregate g = .error (.malformed (a.storage.aggregatePath g) cause) ∧
      b.currentAggregate g = .error (.malformed (Path.ofString g.text) cause) := by
  have hstaged : a.staged? g = b.staged? g := by rw [staged?, staged?, h.dryRun, h.groups]
  rw [Aggregator.currentAggregate, Aggregator.currentAggregate, hstaged]
  cases b.staged? g with
  | some r => exact Or.inl ⟨r, rfl, rfl⟩
  | none =>
    rcases h.mirrors.loadAggregate h.stands hname hshort with ⟨o, ha, hb⟩ | ⟨cause, ha, hb⟩
    · exact Or.inl ⟨o.getD .empty, by simp only [ha, Except.map], by simp only [hb, Except.map]⟩
    · exact Or.inr ⟨cause, by simp only [ha, Except.map], by simp only [hb, Except.map]⟩

/-- **Both runs settle a record alike.** -/
theorem settle (h : InStep P A a b) (hname : IsEntryName (Path.ofString file))
    (hfits : a.storage.Fits [file]) (hpending : file ∈ b.storage.published)
    (hg : GroupName.ofFile file = .ok g) (r : Record) :
    (a.settle file g r).1 = (b.settle file g r).1 ∧
      InStep P A (a.settle file g r).2 (b.settle file g r).2 ∧
      Advances P A a (a.settle file g r).2 ∧
      ∀ f ≠ file, f ∈ b.storage.published → f ∈ (b.settle file g r).2.storage.published := by
  cases hmode : b.dryRun with
  | true =>
    have hdry : a.dryRun = true := h.dryRun.trans hmode
    rw [Aggregator.settle, Aggregator.settle, if_pos hmode, if_pos hdry]
    exact ⟨rfl, h.stage g r, ⟨rfl, rfl, .refl P A _⟩, fun _ _ hf => hf⟩
  | false =>
    have hreal : a.dryRun = false := h.dryRun.trans hmode
    have hshort := hfits.published file (List.mem_singleton_self _)
    obtain ⟨files, hsave, hput, hsaved⟩ := h.mirrors.saveAggregate h.stands h.rooted
      (GroupName.isEntryName_of_ofFile hg hname) (hfits.aggregate file (List.mem_singleton_self _) g hg)
      hfits.temporary (by rw [h.readOnly]; exact List.not_mem_nil) r
    have hways := hsaved.sameWays (h.mirrors.noWayThrough_aggregate g) (.of_file hsaved.changed)
    have hmirrors := h.mirrors.putAggregate h.stands.apart hsaved
    have hstill : StaysPut a.storage { a.storage with files } :=
      .of_sameWays hways hsaved.workingDirectory
    have hstands := hstill.standsAt h.stands
    have hunlocked : file ∉ (b.storage.putAggregate g (RowFormat.render r)).locked := by
      show file ∉ b.storage.locked
      rw [h.locked]
      exact List.not_mem_nil
    obtain ⟨hconsume, herase, hno⟩ := Mirrors.consume (s := { a.storage with files }) hmirrors
      hstands hname hshort hpending hunlocked
    have hremoved := Changed.erase files (show P ++ [Path.ofString file] ≠ [] by simp)
    have hways' := hremoved.sameWays hno (.of_vacant hremoved.changed)
    have hstill' : StaysPut { a.storage with files }
        { a.storage with files := files.erase (P ++ [Path.ofString file]) } :=
      ⟨rfl, rfl, hremoved.workingDirectory, hways'⟩
    have hstep : InStep P A
        { a with storage := { a.storage with files := files.erase (P ++ [Path.ofString file]) } }
        { b with storage := { b.storage.putAggregate g (RowFormat.render r) with
          published := b.storage.published.erase file } } :=
      ⟨h.dryRun, h.groups, hmirrors.erase h.stands.apart hremoved,
        hstill'.standsAt hstands,
        (h.rooted.of_sameWays hways hsaved.workingDirectory).of_sameWays hways'
          hremoved.workingDirectory, h.readOnly, h.locked⟩
    rw [settle_merged hreal hsave hconsume, settle_merged hmode hput herase]
    refine ⟨rfl, hstep.stage g r, ⟨rfl, rfl, hsaved.workingDirectory, fun l hl => ?_⟩,
      fun f hne hf => ?_⟩
    · exact (hremoved.kept l (hl _).1).trans (hsaved.kept l (hl _).2)
    · have hcompare : ¬Utf8.compareText file f = .eq := by simpa using hne.symm
      exact Std.TreeMap.mem_erase.2 ⟨hcompare, hf⟩

/-- **Both runs process a file alike.** -/
theorem attempt (h : InStep P A a b) (hname : IsEntryName (Path.ofString file))
    (hfits : a.storage.Fits [file]) (hpending : file ∈ b.storage.published) :
    FileResult.Agrees a.storage.published a.storage.aggregate ((a.attempt file).1.result file)
        ((b.attempt file).1.result file) ∧
      InStep P A (a.attempt file).2 (b.attempt file).2 ∧ Advances P A a (a.attempt file).2 ∧
      ∀ f ≠ file, f ∈ b.storage.published → f ∈ (b.attempt file).2.storage.published := by
  -- A file that both refuse changes nothing.
  have hrefused : ∀ {ta tb : Attempt},
      Refused a.currentAggregate (Storage.readPublished a.storage) file ta →
      Refused b.currentAggregate (Storage.readPublished b.storage) file tb →
      FileResult.Agrees a.storage.published a.storage.aggregate (ta.result file) (tb.result file) →
      FileResult.Agrees a.storage.published a.storage.aggregate ((a.attempt file).1.result file)
          ((b.attempt file).1.result file) ∧
        InStep P A (a.attempt file).2 (b.attempt file).2 ∧ Advances P A a (a.attempt file).2 ∧
        ∀ f ≠ file, f ∈ b.storage.published → f ∈ (b.attempt file).2.storage.published := by
    intro ta tb hta htb hagrees
    rw [attempt_of_refused (accept_eq_error_iff.2 hta), attempt_of_refused (accept_eq_error_iff.2 htb)]
    exact ⟨hagrees, h, .refl P A a, fun _ _ hf => hf⟩
  cases hg : GroupName.ofFile file with
  | error e => exact hrefused (.unnamed hg) (.unnamed hg) (.same _)
  | ok g =>
    have hgroup := GroupName.isEntryName_of_ofFile hg hname
    rcases h.currentAggregate hgroup (hfits.aggregate file (List.mem_singleton_self _) g hg) with
      ⟨existing, hla, hlb⟩ | ⟨cause, hla, hlb⟩
    · rcases h.mirrors.readPublished h.stands hname
          (hfits.published file (List.mem_singleton_self _)) hpending with
        ⟨incoming, hra, hrb⟩ | ⟨cause, hra, hrb⟩
      · cases hm : existing.merge incoming with
        | error e => exact hrefused (.overflow hg hla hra hm) (.overflow hg hlb hrb hm) (.same _)
        | ok r =>
          rw [attempt_of_accepted (accept_eq_ok_iff.2 ⟨hg, existing, incoming, hla, hra, hm⟩),
            attempt_of_accepted (accept_eq_ok_iff.2 ⟨hg, existing, incoming, hlb, hrb, hm⟩)]
          obtain ⟨hattempt, hrest⟩ := h.settle hname hfits hpending hg r
          exact ⟨hattempt ▸ .same _, hrest⟩
      · exact hrefused (.unread hg hla hra) (.unread hg hlb hrb) (.content file g cause)
    · exact hrefused (.unloaded hg hla) (.unloaded hg hlb) (.aggregate file g cause)

/-- **Both runs process files in order alike.** -/
theorem processAll {files : List String} (h : InStep P A a b)
    (hnames : ∀ file ∈ files, IsEntryName (Path.ofString file)) (hfits : a.storage.Fits files)
    (hpending : ∀ file ∈ files, file ∈ b.storage.published) (hnodup : files.Nodup) :
    List.Forall₂ (FileResult.Agrees a.storage.published a.storage.aggregate)
        (a.processAll files).1 (b.processAll files).1 ∧
      InStep P A (a.processAll files).2 (b.processAll files).2 ∧
      Advances P A a (a.processAll files).2 := by
  induction files generalizing a b with
  | nil => exact ⟨.nil, h, .refl P A a⟩
  | cons file rest ih =>
    obtain ⟨hnew, hnodup⟩ := List.nodup_cons.1 hnodup
    have hone : a.storage.Fits [file] :=
      ⟨fun f hf => hfits.published f (List.mem_cons.2 (Or.inl (List.mem_singleton.1 hf))),
        fun f hf => hfits.aggregate f (List.mem_cons.2 (Or.inl (List.mem_singleton.1 hf))),
        hfits.temporary⟩
    have hrest : a.storage.Fits rest := ⟨fun f hf => hfits.published f (List.mem_cons_of_mem _ hf),
      fun f hf => hfits.aggregate f (List.mem_cons_of_mem _ hf), hfits.temporary⟩
    obtain ⟨hagrees, hstep, hadvances, hstill⟩ := h.attempt (hnames file (List.mem_cons_self ..))
      hone (hpending file (List.mem_cons_self ..))
    obtain ⟨hall, hlast, hadvances'⟩ := ih hstep
      (fun f hf => hnames f (List.mem_cons_of_mem _ hf)) (hadvances.fits hrest)
      (fun f hf => hstill f (fun e => hnew (e ▸ hf)) (hpending f (List.mem_cons_of_mem _ hf))) hnodup
    rw [hadvances.published, hadvances.aggregate] at hall
    exact ⟨.cons hagrees hall, hlast, hadvances.trans hadvances'⟩

end InStep

/-- **A run over two directories refines the run in memory.**  For every tree in which the
paths lead to two different directories that hold files with exactly the texts of a storage
in memory, a run in either mode reports the same files, groups and outcomes in the same
order, up to the directory in the paths that reasons quote, and the same summaries; and in
the end the directories hold exactly the texts of the storage in memory, and nothing else in
the tree has changed. -/
theorem run_refines (hmode : a.dryRun = b.dryRun) (htree : a.storage.files.IsTree)
    (hpublished : a.storage.files.find a.storage.published = .ok (P, .directory))
    (haggregate : a.storage.files.find a.storage.aggregate = .ok (A, .directory)) (hapart : P ≠ A)
    (hmirrors : Mirrors a.storage.files P A b.storage)
    (hvisible : ∀ file ∈ b.storage.published, Scan.isHidden (Path.ofString file) = false)
    (hopen : b.storage.readOnly = [] ∧ b.storage.locked = [] ∧ b.storage.unusable = [])
    (hfits : a.storage.Fits b.storage.publishedNames) (runDate runDate' : Moment)
    (duration duration' : Binary64) :
    ∃ report report' last last', a.run runDate duration = (.ok report, last) ∧
      b.run runDate' duration' = (.ok report', last') ∧
      List.Forall₂ (FileResult.Agrees a.storage.published a.storage.aggregate)
        report.files report'.files ∧
      report.groups = report'.groups ∧ Mirrors last.storage.files P A last'.storage ∧
      Confined P A a.storage.files last.storage.files := by
  obtain ⟨hreadOnly, hlocked, hunusable⟩ := hopen
  have hstands := standsAt_of_find hpublished haggregate hapart
  obtain ⟨hlist, hlist'⟩ := hmirrors.listPending hstands hvisible hunusable
  obtain ⟨report, hrun, hfiles, hgroups⟩ :=
    run_of_listing hstands.ensureReady hlist runDate duration
  obtain ⟨report', hrun', hfiles', hgroups'⟩ := run_of_listing (a := b) rfl hlist' runDate' duration'
  have hstart : InStep P A { a with groups := ∅ } { b with groups := ∅ } :=
    ⟨hmode, rfl, hmirrors, hstands, htree.isRooted, hreadOnly, hlocked⟩
  have hpending : ∀ file ∈ b.storage.publishedNames, file ∈ b.storage.published :=
    fun _ => Std.TreeMap.mem_keys.1
  have hnames : ∀ file ∈ b.storage.publishedNames, IsEntryName (Path.ofString file) := by
    intro file hfile
    obtain ⟨text, htext⟩ := Option.isSome_iff_exists.1
      (Std.TreeMap.mem_iff_isSome_getElem?.1 (hpending file hfile))
    have hentry := hmirrors.published file
    rw [htext] at hentry
    exact htree.names _ _ hentry _ (List.mem_append_right _ (List.mem_singleton_self _))
  obtain ⟨hall, hlast, hadvances⟩ := hstart.processAll hnames hfits hpending Std.TreeMap.nodup_keys
  have hsorted : ∀ {σ : Type} [Storage σ] (c : Aggregator σ),
      sortResults (c.processAll b.storage.publishedNames).1 =
        (c.processAll b.storage.publishedNames).1 := fun c =>
    sortResults_of_ascending (by rw [map_file_processAll]; exact Std.TreeMap.ordered_keys)
  refine ⟨report, report', _, _, hrun, hrun', ?_, ?_, hlast.mirrors, hadvances.confined⟩
  · rw [hfiles, hfiles', List.map_nil, List.nil_append, List.nil_append, hsorted, hsorted]
    exact hall
  · rw [hgroups, hgroups', summaries, summaries, hlast.groups]

/-- Two files of one group, the second of which does not parse, and no aggregate yet. -/
theorem run_refines_web :
    let place (directory : String) : Location := [Path.ofString directory]
    let inside (name : String) : Location := [Path.ofString "in", Path.ofString name]
    let empty := ((FileSystem.mk ∅ []).insert (place "in") .directory).insert (place "out") .directory
    let fs := (empty.insert (inside "web_1") (.file (Utf8.encode "1\n0.5\n\n"))).insert
      (inside "web_2") (.file (Utf8.encode "x"))
    let m := (MemoryStore.empty.publish "web_1" "1\n0.5\n\n").publish "web_2" "x"
    let a := new (DirectoryStore.mk fs (Path.ofString "/in") (Path.ofString "/out")) false
    let b := new m false
    (fs.IsTree ∧ Mirrors fs (place "in") (place "out") m ∧ a.storage.Fits m.publishedNames ∧
      ∀ file ∈ m.published, Scan.isHidden (Path.ofString file) = false) ∧
    ∃ report report' last last', a.run ⟨0, 0⟩ (.zero false) = (.ok report, last) ∧
      b.run ⟨0, 0⟩ (.zero false) = (.ok report', last') ∧
      List.Forall₂ (FileResult.Agrees (Path.ofString "/in") (Path.ofString "/out"))
        report.files report'.files ∧
      report.groups = report'.groups ∧
      Mirrors last.storage.files (place "in") (place "out") last'.storage ∧
      Confined (place "in") (place "out") fs last.storage.files := by
  intro place inside empty fs m a b
  have hapart : place "in" ≠ place "out" := by decide +kernel
  have htree : fs.IsTree := isTree_of_keys (by decide +kernel) (by decide +kernel) rfl
  have hvacant : ∀ directory name : Bytes, empty.entryAt? ([directory] ++ [name]) = none := by
    intro directory name
    rw [entryAt?_insert _ _ _ _ (by simp [place]), entryAt?_insert _ _ _ _ (by simp [place])]
    simp [place, entryAt?]
  have hempty : Mirrors empty (place "in") (place "out") MemoryStore.empty :=
    ⟨fun _ => hvacant _ _, fun _ => hvacant _ _, fun name h => absurd (hvacant _ name) h,
      fun name h => absurd (hvacant _ name) h⟩
  have hmirrors : Mirrors fs (place "in") (place "out") m :=
    (hempty.publish hapart (.insert _ _ (by simp))).publish hapart (.insert _ _ (by simp))
  have hvisible : ∀ file ∈ m.published, Scan.isHidden (Path.ofString file) = false := by
    have hall : ∀ file ∈ m.publishedNames, Scan.isHidden (Path.ofString file) = false := by
      decide +kernel
    exact fun file hfile => hall file (Std.TreeMap.mem_keys.2 hfile)
  have hfits : a.storage.Fits m.publishedNames := by
    refine ⟨by decide +kernel, fun file hfile g hg => ?_, by decide +kernel⟩
    have hshort : ∀ file ∈ m.publishedNames, (Path.ofString file).length + 5 < pathLimit := by
      decide +kernel
    have hjoin : (a.storage.aggregatePath g).length ≤ 4 + 1 + (Path.ofString g.text).length :=
      Path.length_join_le (Path.ofString "/out") (Path.ofString g.text)
    obtain ⟨rest, hrest⟩ := GroupName.exists_of_ofFile hg
    have hlength := congrArg List.length hrest
    rw [List.length_append] at hlength
    have hfile := hshort file hfile
    unfold Path.ofString at hjoin hfile
    omega
  exact ⟨⟨htree, hmirrors, hfits, hvisible⟩, run_refines (a := a) (b := b) rfl htree
    (by decide +kernel) (by decide +kernel) hapart hmirrors hvisible ⟨rfl, rfl, rfl⟩ hfits
    ⟨0, 0⟩ ⟨0, 0⟩ (.zero false) (.zero false)⟩

end Aggregator
end Rollup
