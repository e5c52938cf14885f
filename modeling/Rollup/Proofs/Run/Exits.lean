/-
# The ways in which a file can end

Processing a file has seven exits, and each of them leaves the storage and what is staged in
one of four conditions (`Aggregator.Exit`).  The file is merged: the aggregate of its group is
saved with the record of the file merged into it, the file is removed, and the record is staged.
It is only not removed: all the same, but for that.  It is planned, in a dry run: the record is
staged and the storage untouched.  Or it is left: storage and staging are as before.  The result
of the file tells which of the four it is, and nothing of another group is touched
(`Aggregator.process_exits`).

This holds over every storage whose calls do nothing when they fail
(`Storage.IsAllOrNothing`), as both those in memory and those in directories are, and from
every aggregator, whatever was done with it.  For a dry aggregator it is also said what was
staged by the calls made so far: the fold over the files planned since the last run
(`Aggregator.Reached.isFold`).
-/

import Rollup.Proofs.Run.Tracking
import Rollup.Proofs.Run.Calls
import Rollup.Proofs.Storage.Directory

namespace Rollup

/-! ### Storages whose failing calls do nothing -/

section Storages

variable {σ : Type} [Storage σ]

/-- Calls that fail leave a storage as it was, where `Same` says what counts as that. -/
structure Storage.IsAllOrNothing (Same : σ → σ → Prop) : Prop where
  refl : ∀ s, Same s s
  save : ∀ {s t g r e}, Storage.saveAggregate s g r = (.error e, t) → Same s t
  consume : ∀ {s t file e}, Storage.consume s file = (.error e, t) → Same s t

/-- A view of a storage that shows nothing but what belongs to a group: it is the same as
long as other groups are saved and files of other groups are removed. -/
structure Storage.IsViewOf {β : Type} (Same : σ → σ → Prop) (g : GroupName) (view : σ → β) : Prop where
  same : ∀ {s t}, Same s t → view t = view s
  save : ∀ {s t h r}, h ≠ g → Storage.saveAggregate s h r = (.ok (), t) → view t = view s
  consume : ∀ {s t file}, GroupName.ofFile file ≠ .ok g → Storage.consume s file = (.ok (), t) →
    view t = view s

end Storages

theorem MemoryStore.isAllOrNothing : Storage.IsAllOrNothing (@Eq MemoryStore) where
  refl _ := rfl
  save {s t g r e} h := by
    by_cases hro : g ∈ s.readOnly
    · rw [saveAggregate_of_readOnly hro] at h
      exact (Prod.mk.inj h).2
    · rw [saveAggregate_of_writable hro] at h
      cases (Prod.mk.inj h).1
  consume {s t file e} h := by
    have hconsume : Storage.consume s file = s.consume file := rfl
    rw [hconsume, MemoryStore.consume] at h
    split at h
    · exact (Prod.mk.inj h).2
    split at h
    · cases (Prod.mk.inj h).1
    · exact (Prod.mk.inj h).2

/-- Two storages in directories have the same paths and the same entries. -/
structure DirectoryStore.Agree (s t : DirectoryStore) : Prop where
  published : t.published = s.published
  aggregate : t.aggregate = s.aggregate
  files : FileSystem.Unchanged s.files t.files

theorem DirectoryStore.isAllOrNothing : Storage.IsAllOrNothing DirectoryStore.Agree where
  refl _ := ⟨rfl, rfl, ⟨rfl, fun _ => rfl⟩⟩
  save {s t g r e} h := by
    have hsave : Storage.saveAggregate s g r = s.saveAggregate g r := rfl
    rw [hsave, DirectoryStore.saveAggregate] at h
    rcases replace_cases s.files (s.aggregatePath g) (Utf8.encode (RowFormat.render r)) with
      ⟨e', files, hreplace, hsame⟩ | ⟨files, d, name, hreplace, -⟩
    · rw [hreplace] at h
      rw [← (Prod.mk.inj h).2]
      exact ⟨rfl, rfl, hsame⟩
    · rw [hreplace] at h
      cases (Prod.mk.inj h).1
  consume {s t file e} h := by
    have hconsume : Storage.consume s file = s.consume file := rfl
    simp only [hconsume, DirectoryStore.consume] at h
    split at h
    · cases (Prod.mk.inj h).1
    · rw [← (Prod.mk.inj h).2]
      exact ⟨rfl, rfl, ⟨rfl, fun _ => rfl⟩⟩

namespace Aggregator

variable {σ : Type} [Storage σ] {Same : σ → σ → Prop} {a b : Aggregator σ} {file : String}
  {g : GroupName} {record : Record}

/-! ### Exits -/

/-- The file belongs to the group, and its record merged into `base` is `record`. -/
structure Merges (a : Aggregator σ) (file : String) (g : GroupName) (base record : Record) : Prop where
  name : GroupName.ofFile file = .ok g
  merge : ∃ incoming, Storage.readPublished a.storage file = .ok incoming ∧
    base.merge incoming = .ok record

/-- What is staged for the group is `record`, with one more file, and nothing else is staged
anew. -/
structure Stages (a b : Aggregator σ) (g : GroupName) (record : Record) : Prop where
  mode : b.dryRun = a.dryRun
  own : b.groups[g]? = some ⟨(a.groups[g]?.map Staged.files).getD 0 + 1, record⟩
  others : ∀ k, k ≠ g → b.groups[k]? = a.groups[k]?

/-- How the processing of a file ends. -/
inductive Ending where
  | merged
  /-- Saved, but the file is still there. -/
  | undeleted
  | planned
  /-- Nothing was done with the file. -/
  | left
  deriving DecidableEq

/-- The ending that an outcome stands for. -/
def endingOf : Outcome → Ending
  | .merged => .merged
  | .planned => .planned
  | .skipped _ => .left
  | .failed reason => if (Outcome.failed reason).isUndeleted then .undeleted else .left

/-- What an ending means: the result that is given for the file, and the aggregator `b` after
it. -/
inductive Exit (Same : σ → σ → Prop) (a : Aggregator σ) (file : String) :
    Ending → FileResult → Aggregator σ → Prop
  /-- The aggregate is replaced by its merge with the file, and the file is removed. -/
  | merged {g : GroupName} {base record : Record} {saved : σ} {b : Aggregator σ}
      (mode : a.dryRun = false) (stored : Procedure.loaded a.storage g = .ok base)
      (merges : Merges a file g base record)
      (save : Storage.saveAggregate a.storage g record = (.ok (), saved))
      (consume : Storage.consume saved file = (.ok (), b.storage)) (stages : Stages a b g record) :
      Exit Same a file .merged ⟨file, some g, .merged⟩ b
  /-- The same, but the file cannot be removed. -/
  | undeleted {g : GroupName} {base record : Record} {saved : σ} {b : Aggregator σ}
      {e : StorageError} (mode : a.dryRun = false)
      (stored : Procedure.loaded a.storage g = .ok base) (merges : Merges a file g base record)
      (save : Storage.saveAggregate a.storage g record = (.ok (), saved))
      (consume : Storage.consume saved file = (.error e, b.storage)) (same : Same saved b.storage)
      (stages : Stages a b g record) :
      Exit Same a file .undeleted ⟨file, some g, .failed (undeletedReason ++ e.message)⟩ b
  /-- Only the staged record is replaced by its merge with the file; if none is staged, by the
  merge of the stored aggregate. -/
  | planned {g : GroupName} {base record : Record} {b : Aggregator σ} (mode : a.dryRun = true)
      (staged : (∃ files, a.groups[g]? = some ⟨files, base⟩) ∨
        a.groups[g]? = none ∧ Procedure.loaded a.storage g = .ok base)
      (merges : Merges a file g base record) (storage : b.storage = a.storage)
      (stages : Stages a b g record) : Exit Same a file .planned ⟨file, some g, .planned⟩ b
  /-- All is as it was. -/
  | left {outcome : Outcome} {b : Aggregator σ} (mode : b.dryRun = a.dryRun)
      (unmerged : outcome.IsUnmerged) (same : Same a.storage b.storage) (groups : b.groups = a.groups) :
      Exit Same a file .left ⟨file, (GroupName.ofFile file).toOption, outcome⟩ b

/-- **The result tells the ending**, so there is only one. -/
theorem Exit.ending_eq {ending : Ending} {r : FileResult} (h : Exit Same a file ending r b) :
    ending = endingOf r.outcome := by
  cases h with
  | merged | planned => rfl
  | undeleted => exact (if_pos (isUndeleted_append _)).symm
  | @left outcome b mode unmerged same groups =>
    cases outcome with
    | skipped reason => rfl
    | failed reason =>
      have hnot := (unmerged.resolve_left Bool.false_ne_true).2
      exact (if_neg (by simp [hnot])).symm
    | merged | planned => rcases unmerged with h | ⟨h, -⟩ <;> cases h

/-! ### Each file takes an exit -/

theorem stages_stage (a : Aggregator σ) (storage : σ) (g : GroupName) (r : Record) :
    Stages a ({ a with storage }.stage g r) g r where
  mode := rfl
  own := by rw [getElem?_stage, if_pos rfl]
  others k hk := by rw [getElem?_stage, if_neg (Ne.symm hk)]

theorem currentAggregate_dry (hdry : a.dryRun = true) {base : Record}
    (h : a.currentAggregate g = .ok base) :
    (∃ files, a.groups[g]? = some ⟨files, base⟩) ∨
      a.groups[g]? = none ∧ Procedure.loaded a.storage g = .ok base := by
  rw [currentAggregate, staged?, if_pos hdry] at h
  cases hstaged : a.groups[g]? with
  | none => rw [hstaged] at h; exact Or.inr ⟨rfl, h⟩
  | some t =>
    rw [hstaged] at h
    obtain rfl := Except.ok.inj h
    exact Or.inl ⟨t.files, rfl⟩

/-- A file that is refused is left. -/
theorem exit_of_refused (hclean : Storage.IsAllOrNothing Same) {t : Attempt}
    (h : Refused a.currentAggregate (Storage.readPublished a.storage) file t) :
    Exit Same a file .left (t.result file) a := by
  rw [Attempt.result, h.group?_eq]
  exact .left rfl h.isUnmerged (hclean.refl _) rfl

/-- A file that is accepted is saved and removed, or planned. -/
theorem exit_of_accepted (hclean : Storage.IsAllOrNothing Same)
    (h : accept a.currentAggregate (Storage.readPublished a.storage) file = .ok (g, record)) :
    ∃ ending, Exit Same a file ending ((a.settle file g record).1.result file)
      (a.settle file g record).2 := by
  obtain ⟨hname, base, incoming, hbase, hread, hmerge⟩ := accept_eq_ok_iff.1 h
  have hmerges : Merges a file g base record := ⟨hname, incoming, hread, hmerge⟩
  cases hmode : a.dryRun with
  | true =>
    rw [settle, if_pos hmode]
    exact ⟨_, .planned hmode (currentAggregate_dry hmode hbase) hmerges rfl
      (stages_stage a a.storage g record)⟩
  | false =>
    rw [currentAggregate_real hmode] at hbase
    rcases hsave : Storage.saveAggregate a.storage g record with ⟨answer, saved⟩
    cases answer with
    | error e =>
      have hsettle : a.settle file g record = (.unsaved g e, { a with storage := saved }) := by
        simp only [settle, hmode, hsave, Bool.false_eq_true, if_false]
      have hgroup : some g = (GroupName.ofFile file).toOption := by rw [hname]; rfl
      rw [hsettle, Attempt.result, Attempt.group?, hgroup]
      exact ⟨_, .left rfl (Or.inr ⟨rfl, e.not_isUndeleted⟩) (hclean.save hsave) rfl⟩
    | ok u =>
      rcases hconsume : Storage.consume saved file with ⟨answer, rest⟩
      cases answer with
      | error e =>
        rw [settle_undeleted hmode hsave hconsume]
        exact ⟨_, .undeleted hmode hbase hmerges hsave hconsume (hclean.consume hconsume)
          (stages_stage a rest g record)⟩
      | ok u =>
        rw [settle_merged hmode hsave hconsume]
        exact ⟨_, .merged hmode hbase hmerges hsave hconsume (stages_stage a rest g record)⟩

/-- **Every file takes an exit.** -/
theorem exists_exit (hclean : Storage.IsAllOrNothing Same) (a : Aggregator σ) (file : String) :
    ∃ ending, Exit Same a file ending (a.process file).1 (a.process file).2 := by
  rw [process]
  rcases accept_cases a.currentAggregate (Storage.readPublished a.storage) file with
    ⟨t, haccept, hrefused⟩ | ⟨g, record, haccept⟩
  · rw [attempt_of_refused haccept]
    exact ⟨_, exit_of_refused hclean hrefused⟩
  · rw [attempt_of_accepted haccept]
    exact exit_of_accepted hclean haccept

/-! ### Other groups -/

section Others

variable {ending : Ending} {r : FileResult} {k : GroupName}

/-- Nothing is staged for another group. -/
theorem Exit.groups_eq (h : Exit Same a file ending r b) (hk : GroupName.ofFile file ≠ .ok k) :
    b.groups[k]? = a.groups[k]? := by
  have hne : ∀ {g}, GroupName.ofFile file = .ok g → k ≠ g := fun hg e => hk (e ▸ hg)
  cases h with
  | merged _ _ merges _ _ stages => exact stages.others k (hne merges.name)
  | undeleted _ _ merges _ _ _ stages => exact stages.others k (hne merges.name)
  | planned _ _ merges _ stages => exact stages.others k (hne merges.name)
  | left _ _ _ groups => rw [groups]

/-- Nothing of another group is touched in the storage. -/
theorem Exit.view_eq {β : Type} {view : σ → β} (h : Exit Same a file ending r b)
    (hk : GroupName.ofFile file ≠ .ok k) (hview : Storage.IsViewOf Same k view) :
    view b.storage = view a.storage := by
  have hne : ∀ {g}, GroupName.ofFile file = .ok g → g ≠ k := fun hg e => hk (e ▸ hg)
  cases h with
  | merged _ _ merges save consume =>
    exact (hview.consume hk consume).trans (hview.save (hne merges.name) save)
  | undeleted _ _ merges save _ same =>
    exact (hview.same same).trans (hview.save (hne merges.name) save)
  | planned _ _ _ storage => rw [storage]
  | left _ _ same => exact hview.same same

end Others

/-! ### What is staged in a dry run -/

/-- What can become of an aggregator by processing files and running. -/
inductive Reached (start : σ) (dry : Bool) : Aggregator σ → Prop
  | new : Reached start dry (new start dry)
  | process {b : Aggregator σ} (file : String) (before : Reached start dry b) :
      Reached start dry (b.process file).2
  | run {b : Aggregator σ} (runDate : Moment) (duration : Binary64)
      (before : Reached start dry b) : Reached start dry (b.run runDate duration).2

/-- What is staged is the fold of `merge` over so many files of the group, from its stored
aggregate. -/
def IsFold (s : σ) (g : GroupName) (staged : Staged) : Prop :=
  ∃ (files : List String) (records : List Record) (base : Record),
    (∀ file ∈ files, GroupName.ofFile file = .ok g) ∧ files.length = staged.files ∧
    files.map (Storage.readPublished s) = records.map .ok ∧
    Procedure.loaded s g = .ok base ∧ records.foldlM Record.merge base = .ok staged.record

/-- A further file of the group is merged. -/
theorem IsFold.concat {staged : Staged} (h : IsFold a.storage g staged)
    (hmerges : Merges a file g staged.record record) :
    IsFold a.storage g ⟨staged.files + 1, record⟩ := by
  obtain ⟨files, records, base, hnames, hlength, hread, hbase, hfold⟩ := h
  obtain ⟨hname, incoming, hincoming, hmerge⟩ := hmerges
  refine ⟨files ++ [file], records ++ [incoming], base, fun f hf => ?_, ?_, ?_, hbase,
    Record.foldlM_merge_concat.2 ⟨_, hfold, hmerge⟩⟩
  · rcases List.mem_append.1 hf with hf | hf
    · exact hnames f hf
    · exact List.mem_singleton.1 hf ▸ hname
  · rw [List.length_append, hlength]
    rfl
  · rw [List.map_append, List.map_append, hread, List.map_singleton, List.map_singleton, hincoming]

/-- **In a dry run, every exit keeps what is staged a fold.** -/
theorem Exit.isFold {ending : Ending} {r : FileResult} (hexit : Exit Same a file ending r b)
    (hdry : a.dryRun = true) (h : ∀ g t, a.groups[g]? = some t → IsFold a.storage g t) :
    ∀ g t, b.groups[g]? = some t → IsFold a.storage g t := by
  intro g t ht
  cases hexit with
  | merged mode => rw [hdry] at mode; cases mode
  | undeleted mode => rw [hdry] at mode; cases mode
  | left _ _ _ groups => exact h g t (groups ▸ ht)
  | @planned k base record b _ staged merges _ stages =>
    by_cases hk : g = k
    · subst hk
      rw [stages.own] at ht
      obtain rfl := Option.some.inj ht
      rcases staged with ⟨files, hstaged⟩ | ⟨hnone, hloaded⟩
      · rw [hstaged]
        exact (h g _ hstaged).concat merges
      · rw [hnone]
        -- The stored aggregate is the fold over no file.
        have hnil : IsFold a.storage g ⟨0, base⟩ :=
          ⟨[], [], base, fun _ hf => absurd hf List.not_mem_nil, rfl, rfl, hloaded, rfl⟩
        exact hnil.concat merges
    · exact h g t (stages.others g hk ▸ ht)

/-- After a run nothing is staged, unless the storage could not be used and nothing was done. -/
theorem groups_run_cases (a : Aggregator σ) (runDate : Moment) (duration : Binary64) :
    (a.run runDate duration).2.dryRun = a.dryRun ∧
      ((a.run runDate duration).2.groups = a.groups ∨ (a.run runDate duration).2.groups = ∅) := by
  cases hready : Storage.ensureReady a.storage with
  | error e =>
    have hrun : a.run runDate duration = (.error e, a) := by simp only [run, hready]
    rw [hrun]
    exact ⟨rfl, Or.inl rfl⟩
  | ok u =>
    cases hlist : Storage.listPending a.storage with
    | error e =>
      have hrun : a.run runDate duration = (.error e, { a with groups := ∅ }) := by
        simp only [run, hready, hlist]
      rw [hrun]
      exact ⟨rfl, Or.inr rfl⟩
    | ok listing =>
      obtain ⟨report, hrun, -⟩ := run_of_listing hready hlist runDate duration
      rw [hrun]
      exact ⟨dryRun_processAll (a := { a with groups := ∅ }) _, Or.inr rfl⟩

/-- **In a dry run, what is staged is the fold over the files planned**, whatever calls were
made before. -/
theorem Reached.isFold {start : σ} (h : Reached start true a) :
    a.dryRun = true ∧ a.storage = start ∧ ∀ g t, a.groups[g]? = some t → IsFold start g t := by
  induction h with
  | new => exact ⟨rfl, rfl, fun g t ht => by simp [Aggregator.new] at ht⟩
  | @process b file before ih =>
    obtain ⟨hdry, rfl, hfold⟩ := ih
    -- A dry run makes no call that could fail, so these may leave anything.
    have hclean : Storage.IsAllOrNothing fun _ _ : σ => True :=
      ⟨fun _ => trivial, fun _ => trivial, fun _ => trivial⟩
    obtain ⟨ending, hexit⟩ := exists_exit hclean b file
    exact ⟨(dryRun_attempt b file).trans hdry, storage_attempt_of_dryRun hdry file,
      hexit.isFold hdry hfold⟩
  | @run b runDate duration before ih =>
    obtain ⟨hdry, rfl, hfold⟩ := ih
    obtain ⟨hmode, hgroups⟩ := groups_run_cases b runDate duration
    refine ⟨hmode.trans hdry, storage_run_of_dryRun hdry runDate duration, fun g t ht => ?_⟩
    rcases hgroups with hgroups | hgroups
    · exact hfold g t (hgroups ▸ ht)
    · rw [hgroups] at ht
      simp at ht

/-- A file takes one exit, and nothing else is affected. -/
structure IsAtomic (Same : σ → σ → Prop) (a : Aggregator σ) (file : String) : Prop where
  exit : ∃! ending, Exit Same a file ending (a.process file).1 (a.process file).2
  /-- What is staged for another group than that of the name, and what the storage holds of
  it, are as before. -/
  others : ∀ k, GroupName.ofFile file ≠ .ok k →
    (a.process file).2.groups[k]? = a.groups[k]? ∧
    ∀ {β : Type} {view : σ → β}, Storage.IsViewOf Same k view →
      view (a.process file).2.storage = view a.storage
  /-- The staged records that a dry run goes on from are folds over planned files. -/
  staged : ∀ start, Reached start true a → ∀ g t, a.groups[g]? = some t → IsFold start g t

/-- **Processing a file is atomic**, over every storage whose failing calls leave it as it was,
and whatever was done before. -/
theorem process_exits (hclean : Storage.IsAllOrNothing Same) (a : Aggregator σ) (file : String) :
    a.IsAtomic Same file := by
  obtain ⟨ending, hexit⟩ := exists_exit hclean a file
  exact {
    exit := ⟨ending, hexit, fun other hother => hother.ending_eq.trans hexit.ending_eq.symm⟩
    others := fun k hk => ⟨hexit.groups_eq hk, fun hview => hexit.view_eq hk hview⟩
    staged := fun start hreached => hreached.isFold.2.2 }

/-- A storage in memory with a file that can be saved and not removed. -/
theorem process_exits_locked :
    let a := new ((MemoryStore.empty.publish "web_1" "1,2\n\n\n").lock "web_1") false
    Storage.IsAllOrNothing (@Eq MemoryStore) ∧ a.IsAtomic Eq "web_1" :=
  ⟨MemoryStore.isAllOrNothing, process_exits MemoryStore.isAllOrNothing _ _⟩

end Aggregator
end Rollup
