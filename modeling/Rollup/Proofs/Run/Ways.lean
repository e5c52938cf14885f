/-
# A run keeps all ways

A file in a real run over two paths is left in place, and all entries are as they were; or
it is merged, and two entries change, the aggregate of its group and then its own
(`Aggregator.attempt_on_disk`).  That holds also where both paths lead to one directory,
since a file and its group have different names.  Both places were looked at before they
were touched, and a record is only read or found missing where no way leads through.

So no run, real or dry, changes to which directory a path leads, or whether it leads to one
(`Aggregator.staysPut_run`).  What is tested of a path before a run holds after it.
-/

import Rollup.Proofs.Run.Calls
import Rollup.Proofs.Run.Tracking
import Rollup.Proofs.Storage.Directory

namespace Rollup

namespace DirectoryStore

open FileSystem

variable {P A : Location} {fs saved fs' : FileSystem} {file : String} {g : GroupName} {r : Record}

/-- A file was merged: first the aggregate of its group was written, and then its entry was
removed.  No way led through their places. -/
structure Merged (P A : Location) (fs saved fs' : FileSystem) (file : String) (g : GroupName)
    (r : Record) : Prop where
  save : Changed fs saved (A ++ [Path.ofString g.text])
    (some (.file (Utf8.encode (RowFormat.render r))))
  consume : Changed saved fs' (P ++ [Path.ofString file]) none
  aggregate_blind : NoWayThrough fs (A ++ [Path.ofString g.text])
  file_blind : NoWayThrough saved (P ++ [Path.ofString file])

namespace Merged

theorem ways_saved (h : Merged P A fs saved fs' file g r) : SameWays fs saved :=
  h.save.sameWays h.aggregate_blind (.of_file h.save.changed)

theorem ways (h : Merged P A fs saved fs' file g r) : SameWays fs fs' :=
  h.ways_saved.trans (h.consume.sameWays h.file_blind (.of_vacant h.consume.changed))

theorem workingDirectory (h : Merged P A fs saved fs' file g r) :
    fs'.workingDirectory = fs.workingDirectory :=
  h.consume.workingDirectory.trans h.save.workingDirectory

end Merged

end DirectoryStore

namespace Aggregator

open FileSystem DirectoryStore

variable {P A : Location} {a : Aggregator DirectoryStore} {file : String}

/-- Where the aggregate of a group was looked at, no way leads through. -/
theorem noWayThrough_of_currentAggregate {g : GroupName} {r : Record} (hreal : a.dryRun = false)
    (haggregate : ∃ k, a.storage.files.Reaches a.storage.aggregate k A)
    (hname : IsEntryName (Path.ofString g.text)) (hload : a.currentAggregate g = .ok r) :
    NoWayThrough a.storage.files (A ++ [Path.ofString g.text]) := by
  obtain ⟨k, hreach⟩ := haggregate
  rw [currentAggregate_real hreal, Procedure.loaded] at hload
  cases hl : Storage.loadAggregate a.storage g with
  | error e => rw [hl] at hload; cases hload
  | ok o => exact (noWayThrough_of_readRecord hreach hname (loadAggregate_cases hl)).2

/-- **One file in a real run on disk.**  It is left in place, and all entries are as they
were; or it is merged. -/
theorem attempt_on_disk (hreal : a.dryRun = false)
    (hpublished : ∃ k, a.storage.files.Reaches a.storage.published k P)
    (haggregate : ∃ k, a.storage.files.Reaches a.storage.aggregate k A)
    (hname : IsEntryName (Path.ofString file)) :
    (∃ t files, a.attempt file = (t, { a with storage := { a.storage with files } }) ∧
      (t.outcome.isSkipped = true ∨ t.outcome.isFailed = true) ∧ Unchanged a.storage.files files) ∨
    ∃ g r saved files,
      a.attempt file = (.merged g, { a with storage := { a.storage with files } }.stage g r) ∧
      GroupName.ofFile file = .ok g ∧ Merged P A a.storage.files saved files file g r := by
  rcases accept_cases a.currentAggregate (Storage.readPublished a.storage) file with
    ⟨t, ht, hrefused⟩ | ⟨g, r, haccept⟩
  · exact Or.inl ⟨t, _, attempt_of_refused ht, hrefused.isUnmerged.imp_right And.left, rfl,
      fun _ => rfl⟩
  · obtain ⟨hg, existing, incoming, hload, hread, -⟩ := accept_eq_ok_iff.1 haccept
    have hgroup := GroupName.isEntryName_of_ofFile hg hname
    rw [attempt_of_accepted haccept]
    rcases saveAggregate_cases haggregate hgroup r with
      ⟨e, files, hsave, hsame⟩ | ⟨saved, hsave, hchanged⟩
    · refine Or.inl ⟨.unsaved g e, files, ?_, Or.inr rfl, hsame⟩
      simp only [settle, hreal, hsave, Bool.false_eq_true, if_false]
    · -- The aggregate and the file were both looked at before anything was touched.
      have hblind := noWayThrough_of_currentAggregate hreal haggregate hgroup hload
      obtain ⟨k, hreach⟩ := hpublished
      obtain ⟨hcheck, hno⟩ := noWayThrough_of_readRecord hreach hname (Or.inl ⟨incoming, hread⟩)
      obtain ⟨entry, hentry, hdir⟩ := exists_entry_of_readRecord hreach hname hread
      have hways := hchanged.sameWays hblind (.of_file hchanged.changed)
      -- The names differ, even if the directories do not.
      have hplaces : P ++ [Path.ofString file] ≠ A ++ [Path.ofString g.text] := fun e =>
        GroupName.ofString_ne_of_ofFile hg (last_eq_of_concat_eq e)
      have hkept := hchanged.kept _ hplaces
      have hconsume := consume_of_entry (s := { a.storage with files := saved })
        ⟨k, hreach.of_sameWays hways hchanged.workingDirectory⟩ hname hcheck (hkept.trans hentry) hdir
      have herased := Changed.erase saved (show P ++ [Path.ofString file] ≠ [] by simp)
      exact Or.inr ⟨g, r, saved, _, settle_merged hreal hsave hconsume, hg, hchanged, herased, hblind,
        hno.congr hways hkept⟩

/-- Processing one file keeps all ways. -/
theorem staysPut_attempt (hpublished : ∃ k, a.storage.files.Reaches a.storage.published k P)
    (haggregate : ∃ k, a.storage.files.Reaches a.storage.aggregate k A)
    (hname : IsEntryName (Path.ofString file)) :
    StaysPut a.storage (a.attempt file).2.storage := by
  cases hmode : a.dryRun with
  | true => rw [storage_attempt_of_dryRun hmode]; exact .refl _
  | false =>
    rcases attempt_on_disk hmode hpublished haggregate hname with
      ⟨t, files, hattempt, -, hsame⟩ | ⟨g, r, saved, files, hattempt, -, hmerged⟩
    · rw [hattempt]
      exact .of_sameWays hsame.sameWays hsame.workingDirectory
    · rw [hattempt]
      exact .of_sameWays hmerged.ways hmerged.workingDirectory

/-- Processing some files keeps all ways. -/
theorem staysPut_processAll {files : List String}
    (hpublished : ∃ k, a.storage.files.Reaches a.storage.published k P)
    (haggregate : ∃ k, a.storage.files.Reaches a.storage.aggregate k A)
    (hnames : ∀ file ∈ files, IsEntryName (Path.ofString file)) :
    StaysPut a.storage (a.processAll files).2.storage := by
  induction files generalizing a with
  | nil => exact .refl _
  | cons file rest ih =>
    have hfirst := staysPut_attempt hpublished haggregate (hnames file (List.mem_cons_self ..))
    have hrest := ih (a := (a.attempt file).2)
      (hfirst.published ▸ hfirst.reaches hpublished) (hfirst.aggregate ▸ hfirst.reaches haggregate)
      fun f hf => hnames f (List.mem_cons_of_mem _ hf)
    exact hfirst.trans hrest

/-- **A run keeps all ways**, real or dry, whatever its paths lead to. -/
theorem staysPut_run (hnames : a.storage.files.IsProperlyNamed) (runDate : Moment)
    (duration : Binary64) : StaysPut a.storage (a.run runDate duration).2.storage := by
  cases hready : Storage.ensureReady a.storage with
  | error e =>
    simp only [run, hready]
    exact .refl _
  | ok u =>
    obtain ⟨hpublished, haggregate⟩ := ensureReady_eq_ok_iff.1 hready
    obtain ⟨k, P, hP⟩ := FileSystem.isDirectory_iff.1 hpublished
    obtain ⟨m, A, hA⟩ := FileSystem.isDirectory_iff.1 haggregate
    have hlist := listPending_of_reaches ⟨k, hP⟩
    obtain ⟨report, hrun, -⟩ := run_of_listing hready hlist runDate duration
    rw [hrun]
    exact staysPut_processAll (a := { a with groups := ∅ }) ⟨k, hP⟩ ⟨m, hA⟩ fun file hfile =>
      isEntryName_of_pending (fun _ => hnames.isEntryName) hfile

end Aggregator
end Rollup
