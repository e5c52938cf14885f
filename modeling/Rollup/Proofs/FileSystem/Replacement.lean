/-
# A replacement changes one entry or none

While a replacement is under way (`Replacement.IsUnderWay`), a file at a place that was free
holds what has been written, and nothing else has changed.  Whatever the tree, one that succeeds
puts the new content where the name of the target stands and changes nothing else, and one that
is given up or fails at its last step leaves every entry as it was (`IsUnderWay.finish_cases`,
`IsUnderWay.discard`).

A replacement can always be started for a name in a directory that is reached
(`Replacement.exists_start`): a free temporary name is left, since there are more of them
than entries, and the way to the directory is the same from the root, through the working
directory, and without the dots that its path may end in.
-/

import Mathlib.Data.List.Nodup
import Mathlib.Data.List.Perm.Subperm
import Rollup.Proofs.Decimal.ReadBack
import Rollup.FileSystem.Scan
import Rollup.Proofs.FileSystem.Tree

namespace Rollup

/-! ### Changing one entry -/

namespace FileSystem

/-- The tree after a change at one place, where `now?` stands now. -/
structure Changed (fs fs' : FileSystem) (place : Location) (now? : Option Entry) : Prop where
  workingDirectory : fs'.workingDirectory = fs.workingDirectory
  changed : fs'.entryAt? place = now?
  kept : ∀ l, l ≠ place → fs'.entryAt? l = fs.entryAt? l

/-- All entries are as they were. -/
structure Unchanged (fs fs' : FileSystem) : Prop where
  workingDirectory : fs'.workingDirectory = fs.workingDirectory
  kept : ∀ l, fs'.entryAt? l = fs.entryAt? l

section

variable {fs fs' : FileSystem} {place d : Location} {name : Bytes} {p : Path} {entry : Entry}

theorem Changed.insert (fs : FileSystem) (entry : Entry) (h : place ≠ []) :
    Changed fs (fs.insert place entry) place (some entry) where
  workingDirectory := rfl
  changed := by rw [entryAt?_insert _ _ _ _ h, if_pos rfl]
  kept l hl := by rw [entryAt?_insert _ _ _ _ h, if_neg (Ne.symm hl)]

theorem Changed.erase (fs : FileSystem) (h : place ≠ []) : Changed fs (fs.erase place) place none where
  workingDirectory := rfl
  changed := by rw [entryAt?_erase _ _ _ h, if_pos rfl]
  kept l hl := by rw [entryAt?_erase _ _ _ h, if_neg (Ne.symm hl)]

/-- Nothing leads through a place that is free. -/
theorem NoWayThrough.of_vacant (h : fs.entryAt? place = none) : NoWayThrough fs place :=
  .of_leaf (by simp [h]) fun target => by simp [h]

/-- Nothing leads through a file. -/
theorem NoWayThrough.of_file {content : Bytes} (h : fs.entryAt? place = some (.file content)) :
    NoWayThrough fs place :=
  .of_leaf (by simp [h]) fun target => by simp [h]

theorem Changed.sameWays {now? : Option Entry} (h : Changed fs fs' place now?)
    (hold : NoWayThrough fs place) (hnew : NoWayThrough fs' place) : SameWays fs fs' :=
  sameWays_of_change fun l => by
    by_cases hl : l = place
    · exact Or.inr ⟨hl ▸ hold, hl ▸ hnew⟩
    · exact Or.inl (h.kept l hl)

theorem Unchanged.sameWays (h : Unchanged fs fs') : SameWays fs fs' :=
  sameWays_of_change fun l => Or.inl (h.kept l)

/-- **Removing a name** takes its entry away. -/
theorem remove_of_entry (hnames : fs.NamesEntry p d name)
    (he : fs.entryAt? (d ++ [name]) = some entry) (hdir : entry ≠ .directory) :
    fs.remove p = .ok (fs.erase (d ++ [name])) := by
  simp only [remove, lastStep_eq_ok_iff.2 hnames, bind, Except.bind, he]
  cases entry with
  | directory => exact absurd rfl hdir
  | file | link | socket | device => rfl

end

end FileSystem

namespace Replacement

open FileSystem

variable {fs now : FileSystem} {target : Path} {r : Replacement} {content : Bytes}
  {place d : Location} {name : Bytes}

/-! ### Temporary names -/

theorem temporaryName_injective {m n : Nat} (h : temporaryName m = temporaryName n) : m = n := by
  have hvalue : ∀ k, Decimal.value (List.replicate (6 - (Decimal.writeNat k).length) '0' ++
      Decimal.writeNat k) = k := fun k => by
    rw [Decimal.value_zeros_append, Decimal.value_writeNat]
  have htext := congrArg String.toList (Utf8.encode_injective h)
  simp only [String.toList_append, String.toList_ofList] at htext
  rw [← hvalue m, List.append_cancel_left htext, hvalue]

theorem isHidden_temporaryName (n : Nat) : Scan.isHidden (temporaryName n) = true := by
  rw [temporaryName, Utf8.encode_append]
  rfl

theorem vacant_of_freshName? (h : freshName? fs d = some name) :
    fs.entryAt? (d ++ [name]) = none := by
  simpa using List.find?_some h

/-- **There is always a free temporary name.** -/
theorem exists_freshName (fs : FileSystem) (d : Location) : ∃ name, freshName? fs d = some name := by
  cases hfresh : freshName? fs d with
  | some name => exact ⟨name, rfl⟩
  | none =>
    -- Otherwise there were more temporary files than entries.
    let places := (List.range (fs.entries.size + 1)).map fun n => d ++ [temporaryName n]
    have hnodup : places.Nodup := List.Nodup.map (fun m n hmn =>
      temporaryName_injective (List.singleton_inj.1 (List.append_cancel_left hmn))) List.nodup_range
    have htaken : places ⊆ fs.entries.keys := by
      intro l hl
      obtain ⟨n, hn, rfl⟩ := List.mem_map.1 hl
      have hsome := List.find?_eq_none.1 hfresh _ (List.mem_map_of_mem hn)
      have hne : d ++ [temporaryName n] ≠ [] := by simp
      rw [entryAt?, if_neg hne, Option.isNone_iff_eq_none] at hsome
      exact Std.TreeMap.mem_keys.2 (Std.TreeMap.mem_iff_isSome_getElem?.2
        (Option.isSome_iff_ne_none.2 hsome))
    have hlength := (hnodup.subperm htaken).length_le
    rw [List.length_map, List.length_range, Std.TreeMap.length_keys] at hlength
    exact absurd hlength (Nat.not_succ_le_self _)

/-! ### The steps of a replacement -/

/-- A replacement under way: a file at a place that was free holds the content written so far,
and nothing else has changed. -/
structure IsUnderWay (fs : FileSystem) (target : Path) (r : Replacement) (content : Bytes)
    (now : FileSystem) : Prop where
  aim : r.target = target
  temporary_ne_nil : r.temporary ≠ []
  free : fs.entryAt? r.temporary = none
  gathered : Changed fs now r.temporary (some (.file content))

/-- A replacement starts with an empty file at a free place. -/
theorem isUnderWay_of_start (h : start fs target = .ok (now, r)) : IsUnderWay fs target r [] now := by
  unfold start at h
  split at h
  · rename_i parent hparent
    simp only [bind, Except.bind] at h
    split at h
    · cases h
    split at h
    · rename_i hfresh
      obtain ⟨rfl, rfl⟩ := Prod.mk.inj (Except.ok.inj h)
      exact ⟨rfl, by simp, vacant_of_freshName? hfresh, Changed.insert fs _ (by simp)⟩
    · cases h
  · cases h

/-- What is written next goes behind what has been written. -/
theorem IsUnderWay.write (h : IsUnderWay fs target r content now) (more : Bytes) :
    IsUnderWay fs target r (content ++ more) (write now r more) := by
  have hwrite : Replacement.write now r more =
      now.insert r.temporary (.file (content ++ more)) := by
    rw [Replacement.write, h.gathered.changed]
  have hmore := Changed.insert now (.file (content ++ more)) h.temporary_ne_nil
  refine ⟨h.aim, h.temporary_ne_nil, h.free, ?_⟩
  rw [hwrite]
  exact ⟨h.gathered.workingDirectory, hmore.changed,
    fun l hl => (hmore.kept l hl).trans (h.gathered.kept l hl)⟩

/-- **A replacement that is given up** leaves no trace. -/
theorem IsUnderWay.discard (h : IsUnderWay fs target r content now) : Unchanged fs (discard now r) := by
  have herased := Changed.erase now h.temporary_ne_nil
  refine ⟨h.gathered.workingDirectory, fun l => ?_⟩
  by_cases htemporary : l = r.temporary
  · rw [htemporary, h.free]
    exact herased.changed
  · exact (herased.kept l htemporary).trans (h.gathered.kept l htemporary)

/-- **A file may take the place** of the entry that the target names, unless that is a directory. -/
theorem destination_eq_ok_iff : destination fs target = .ok place ↔ ∃ d name,
    fs.NamesEntry target d name ∧ fs.entryAt? (d ++ [name]) ≠ some .directory ∧
      place = d ++ [name] := by
  constructor
  · intro h
    unfold destination at h
    split at h
    · cases h
    simp only [bind, Except.bind] at h
    cases hlast : fs.lastStep target with
    | error fault => rw [hlast] at h; cases h
    | ok last =>
      obtain ⟨d, _ | name, slash⟩ := last
      · rw [hlast] at h; cases h
      simp only [hlast] at h
      split at h
      · cases h
      split at h
      · cases h
      · rename_i hslash hdir
        obtain rfl := Except.ok.inj h
        obtain rfl : slash = false := by simpa using hslash
        exact ⟨d, name, lastStep_eq_ok_iff.1 hlast, hdir, rfl⟩
  · rintro ⟨d, name, hnames, hdir, rfl⟩
    have hnul : target.contains 0 = false := by
      simpa using (checkPath_eq_ok_iff.1 hnames.check).1
    simp only [destination, hnul, lastStep_eq_ok_iff.2 hnames, bind, Except.bind,
      Bool.false_eq_true, if_false, if_neg hdir]
    rfl

theorem isEntryName_temporaryName : IsEntryName (temporaryName 0) where
  ne_dot := by decide
  ne_dotDot := by decide
  fits := by decide
  ne_nil := by decide
  no_slash := by decide
  no_nul := by decide

/-- **A replacement can be started** for a name in a directory that is reached, unless the
path of the temporary file is too long. -/
theorem exists_start {k : Nat} {directory : Path} (hrooted : fs.IsRooted)
    (h : Reaches fs directory k d) (hname : IsEntryName name)
    (hshort : (Path.join (Path.join (absolutePath fs.workingDirectory) directory)
      (temporaryName 0)).length < pathLimit) :
    ∃ started, start fs (Path.join directory name) = .ok started := by
  obtain ⟨parent, hparent, hne, hpiece, hnames⟩ := Path.exists_directoryOf? h.ne_nil hname
  have habs : Path.isAbsolute parent = Path.isAbsolute directory := by
    obtain ⟨rest, rfl⟩ := hpiece
    exact (Path.isAbsolute_append hne).symm
  have hstart : (Walk.ofPath fs.workingDirectory parent).directory =
      (Walk.ofPath fs.workingDirectory directory).directory := by
    rw [Walk.ofPath, habs]
    rfl
  have hrelative := Path.isAbsolute_of_isEntryName isEntryName_temporaryName
  have hinside := Nat.lt_of_le_of_lt (Path.length_join_of_isPrefix
    (absolutePath fs.workingDirectory) hne hpiece hrelative) hshort
  have houtside := Nat.lt_of_le_of_lt (Path.le_length_join
    (Path.join (absolutePath fs.workingDirectory) parent) hrelative) hinside
  have hreached : Reaches fs (Path.join (absolutePath fs.workingDirectory) parent) k d := by
    refine hrooted.reaches_absolute hne (fun hnul => ?_) ?_ (by omega)
    · exact (checkPath_eq_ok_iff.1 h.check).1 (hpiece.subset hnul)
    · rw [hstart]
      exact h.way.of_names hnames
  have hlast := lastStep_eq_ok_iff.2 (hreached.namesEntry_join isEntryName_temporaryName
    (hreached.checkPath_join isEntryName_temporaryName hinside))
  obtain ⟨fresh, hfresh⟩ := exists_freshName fs d
  refine ⟨(fs.insert (d ++ [fresh]) (.file []), ⟨Path.join directory name, d ++ [fresh]⟩), ?_⟩
  simp only [start, hparent, hlast, Except.mapError, bind, Except.bind, hfresh]
  rfl

/-- The destination is seen past the temporary file. -/
theorem IsUnderWay.destination_iff (h : IsUnderWay fs target r content now) :
    destination now r.target = .ok place ↔ destination fs target = .ok place := by
  have hsame := h.gathered.sameWays (.of_vacant h.free) (.of_file h.gathered.changed)
  have hdirectory : ∀ l, now.entryAt? l = some .directory ↔ fs.entryAt? l = some .directory := by
    intro l
    by_cases hl : l = r.temporary
    · rw [hl, h.gathered.changed, h.free]
      simp
    · rw [h.gathered.kept l hl]
  simp only [h.aim, destination_eq_ok_iff, ne_eq, hdirectory]
  constructor
  · rintro ⟨d, name, hnames, hrest⟩
    exact ⟨d, name, hnames.of_sameWays hsame.symm h.gathered.workingDirectory.symm, hrest⟩
  · rintro ⟨d, name, hnames, hrest⟩
    exact ⟨d, name, hnames.of_sameWays hsame h.gathered.workingDirectory, hrest⟩

/-- **A replacement that succeeds** puts the content where the name of the target stands. -/
theorem IsUnderWay.finish_of_destination (h : IsUnderWay fs target r content now)
    (hplace : destination fs target = .ok place) :
    ∃ fs', finish now r = (.ok (), fs') ∧ Changed fs fs' place (some (.file content)) := by
  obtain ⟨d, name, -, -, hstands⟩ := destination_eq_ok_iff.1 hplace
  have herased := Changed.erase now h.temporary_ne_nil
  have hmoved := Changed.insert (now.erase r.temporary) (.file content)
    (show place ≠ [] by simp [hstands])
  refine ⟨(now.erase r.temporary).insert place (.file content), ?_,
    h.gathered.workingDirectory, hmoved.changed, fun l hl => ?_⟩
  · rw [finish, h.destination_iff.2 hplace, h.gathered.changed]
  · exact (hmoved.kept l hl).trans (h.discard.kept l)

/-- **The last step** puts the content where the name of the target stands, or it fails and
leaves no trace. -/
theorem IsUnderWay.finish_cases (h : IsUnderWay fs target r content now) :
    (∃ fault fs', finish now r = (.error fault, fs') ∧ Unchanged fs fs') ∨
    ∃ fs' d name, finish now r = (.ok (), fs') ∧ fs.NamesEntry target d name ∧
      fs.entryAt? (d ++ [name]) ≠ some .directory ∧
        Changed fs fs' (d ++ [name]) (some (.file content)) := by
  cases hdestination : destination now r.target with
  | error fault =>
    exact Or.inl ⟨fault, Replacement.discard now r, by rw [finish, hdestination], h.discard⟩
  | ok place =>
    have hplace := h.destination_iff.1 hdestination
    obtain ⟨d, name, hnames, hdir, rfl⟩ := destination_eq_ok_iff.1 hplace
    obtain ⟨fs', hfinish, hchanged⟩ := h.finish_of_destination hplace
    exact Or.inr ⟨fs', d, name, hfinish, hnames, hdir, hchanged⟩

end Replacement
end Rollup
