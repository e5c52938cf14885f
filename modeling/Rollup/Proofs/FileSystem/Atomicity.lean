/-
# A replacement is all or nothing

A replacement is started, written to any number of times, and then finished or given up
(`Replacement.Course`).  Whatever the tree, the target and the writes, it ends in one of two
ways (`Replacement.replacement_all_or_nothing`).  Either the entry that the target names is a
file with all that was written, and every other entry is as it was; or all entries are.  The
first is the case exactly if the temporary file could be created, the target names an entry,
and that is no directory.

A link that the target names is replaced itself.  If the path of the target passes through
that link, as `l/../l` does, the target cannot be read afterwards, since there is a file now
where the path needs a directory (`FileSystem.NamesEntry.read_of_changed`).
-/

import Rollup.Proofs.FileSystem.Replacement

namespace Rollup

/-! ### Reading a file that took the place of an entry -/

namespace FileSystem

variable {fs fs' : FileSystem} {n k : Nat} {place d l : Location} {steps : List Bytes}
  {slash : Bool} {p : Path} {name content : Bytes}

/-- When a file takes the place of anything but a directory, a way is kept, or it passed through
a link at this place and is now cut off there. -/
theorem Way.kept_or_cut (h : Way fs n d steps k l) (hdir : fs.entryAt? place ≠ some .directory)
    (hchanged : Changed fs fs' place (some (.file content))) :
    Way fs' n d steps k l ∨ (∃ link, fs.entryAt? place = some (.link link)) ∧
      ∀ rest, rest ≠ [] →
        FileSystem.walk fs' .find n ⟨d, steps ++ rest, slash⟩ =
          .error (.system .notDirectory) := by
  induction h with
  | here => exact Or.inl .here
  | dot _ ih => exact ih.imp .dot fun ⟨hlink, hcut⟩ =>
      ⟨hlink, fun rest hrest => walk_dot.trans (hcut rest hrest)⟩
  | up _ ih => exact ih.imp .up fun ⟨hlink, hcut⟩ =>
      ⟨hlink, fun rest hrest => walk_dotDot.trans (hcut rest hrest)⟩
  | @down n k d l step steps name entry _ ih =>
    have hne : d ++ [step] ≠ place := by
      rintro rfl
      exact hdir entry
    have entry' := (hchanged.kept _ hne).trans entry
    exact ih.imp (.down name entry') fun ⟨hlink, hcut⟩ =>
      ⟨hlink, fun rest hrest => (walk_directory name entry').trans (hcut rest hrest)⟩
  | @link n k d l step target steps name entry _ ih =>
    by_cases hplace : d ++ [step] = place
    · have hfile : fs'.entryAt? (d ++ [step]) = some (.file content) := hplace ▸ hchanged.changed
      refine Or.inr ⟨⟨target, hplace ▸ entry⟩, fun rest hrest => ?_⟩
      rw [List.cons_append, walk_leaf name hfile Entry.noConfusion fun _ => Entry.noConfusion]
      simp [hrest]
    · have entry' := (hchanged.kept _ hplace).trans entry
      refine ih.imp (.link name entry') fun ⟨hlink, hcut⟩ => ⟨hlink, fun rest hrest => ?_⟩
      rw [List.cons_append, walk_link name entry', Walk.followedBy_append _ hrest]
      exact hcut rest hrest

/-- **A file that took the place of an entry is read**, unless the entry was a link that the path
itself passes through. -/
theorem NamesEntry.read_of_changed (h : fs.NamesEntry p d name)
    (hdir : fs.entryAt? (d ++ [name]) ≠ some .directory)
    (hchanged : Changed fs fs' (d ++ [name]) (some (.file content))) :
    fs'.read p = .ok content ∨ (∃ link, fs.entryAt? (d ++ [name]) = some (.link link)) ∧
      fs'.read p = .error (.system .notDirectory) := by
  obtain ⟨before, k, hsteps, hway⟩ := h.way
  have hofPath : Walk.ofPath fs'.workingDirectory p =
      ⟨(Walk.ofPath fs.workingDirectory p).directory, before ++ [name], false⟩ := by
    rw [hchanged.workingDirectory, Walk.ofPath, hsteps, h.no_slash]
  have hname : [name] ≠ [] := List.cons_ne_nil _ _
  rcases hway.kept_or_cut hdir hchanged with hkept | ⟨hlink, hcut⟩
  · have hfind : fs'.find p = .ok (d ++ [name], .file content) := by
      rw [find_of_checkPath h.check, hofPath, hkept.walk_append hname,
        walk_leaf h.named hchanged.changed Entry.noConfusion fun _ => Entry.noConfusion]
      rfl
    left
    rw [read, hfind]
    rfl
  · have hfind : fs'.find p = .error (.system .notDirectory) := by
      rw [find_of_checkPath h.check, hofPath, hcut _ hname]
    right
    refine ⟨hlink, ?_⟩
    rw [read, hfind]
    rfl

end FileSystem

/-! ### The course of a replacement -/

namespace Replacement

open FileSystem

/-- How far a replacement has come. -/
inductive Stage where
  /-- These contents have been written so far. -/
  | underWay (r : Replacement) (contents : List Bytes)
  /-- The last step succeeded behind these contents. -/
  | replaced (contents : List Bytes)
  /-- A step failed, or the replacement was given up. -/
  | abandoned
  deriving DecidableEq, Repr

/-- The trees and the stages that the replacement of a target can come to in a tree. -/
inductive Course (fs : FileSystem) (target : Path) : FileSystem → Stage → Prop
  | refused {e : Path × Fault} (fault : start fs target = .error e) : Course fs target fs .abandoned
  | started {now : FileSystem} {r : Replacement} (start : start fs target = .ok (now, r)) :
      Course fs target now (.underWay r [])
  | written {now : FileSystem} {r : Replacement} {contents : List Bytes} (content : Bytes)
      (before : Course fs target now (.underWay r contents)) :
      Course fs target (write now r content) (.underWay r (contents ++ [content]))
  | dropped {now : FileSystem} {r : Replacement} {contents : List Bytes}
      (before : Course fs target now (.underWay r contents)) :
      Course fs target (discard now r) .abandoned
  | failed {now now' : FileSystem} {r : Replacement} {contents : List Bytes} {fault : Fault}
      (before : Course fs target now (.underWay r contents))
      (finish : finish now r = (.error fault, now')) : Course fs target now' .abandoned
  | finished {now now' : FileSystem} {r : Replacement} {contents : List Bytes}
      (before : Course fs target now (.underWay r contents))
      (finish : finish now r = (.ok (), now')) : Course fs target now' (.replaced contents)

variable {fs now : FileSystem} {target : Path} {stage : Stage}

/-- What a replacement has done to the tree. -/
def Stage.Holds (fs : FileSystem) (target : Path) (now : FileSystem) : Stage → Prop
  | underWay r contents =>
    (∃ first, start fs target = .ok (first, r)) ∧ IsUnderWay fs target r contents.flatten now
  | replaced contents =>
    (∃ started, start fs target = .ok started) ∧ ∃ d name, fs.NamesEntry target d name ∧
      fs.entryAt? (d ++ [name]) ≠ some .directory ∧
        Changed fs now (d ++ [name]) (some (.file contents.flatten))
  | abandoned => Unchanged fs now

/-- **At each stage of a replacement** one entry is changed at most. -/
theorem Course.holds (h : Course fs target now stage) : stage.Holds fs target now := by
  induction h with
  | refused fault => exact ⟨rfl, fun _ => rfl⟩
  | started start => exact ⟨⟨_, start⟩, isUnderWay_of_start start⟩
  | written content _ ih =>
    refine ⟨ih.1, ?_⟩
    rw [List.flatten_concat]
    exact ih.2.write content
  | dropped _ ih => exact ih.2.discard
  | failed _ hfinish ih =>
    rcases ih.2.finish_cases with ⟨fault, fs', hcase, hsame⟩ | ⟨fs', d, name, hcase, -⟩
    · obtain ⟨-, rfl⟩ := Prod.mk.inj (hfinish.symm.trans hcase)
      exact hsame
    · cases hfinish.symm.trans hcase
  | finished _ hfinish ih =>
    rcases ih.2.finish_cases with ⟨fault, fs', hcase, -⟩ | ⟨fs', d, name, hcase, hreplaced⟩
    · cases hfinish.symm.trans hcase
    · obtain ⟨-, rfl⟩ := Prod.mk.inj (hfinish.symm.trans hcase)
      obtain ⟨first, hfirst⟩ := ih.1
      exact ⟨⟨_, hfirst⟩, d, name, hreplaced⟩

/-- Anything can be written, once a replacement is started. -/
theorem Course.exists_underWay {first : FileSystem} {r : Replacement}
    (h : start fs target = .ok (first, r)) (contents : List Bytes) :
    ∃ now, Course fs target now (.underWay r contents) := by
  induction contents using List.reverseRecOn with
  | nil => exact ⟨first, .started h⟩
  | append_singleton contents content ih =>
    obtain ⟨now, hnow⟩ := ih
    exact ⟨_, hnow.written content⟩

/-- **A replacement is all or nothing.**  If it succeeds, the entry that the target names is a
file with all that was written, and every other entry is as it was; reading the target back
gives the content, unless the entry was a link that the path itself passes through.  If a step
fails or the replacement is given up, all entries are as they were.  It succeeds exactly if it
can be started and the target names an entry that is no directory. -/
theorem replacement_all_or_nothing (fs : FileSystem) (target : Path) :
    (∀ fs' contents, Course fs target fs' (.replaced contents) →
      ∃ d name, fs.NamesEntry target d name ∧
        Changed fs fs' (d ++ [name]) (some (.file contents.flatten)) ∧
        (fs'.read target = .ok contents.flatten ∨
          (∃ link, fs.entryAt? (d ++ [name]) = some (.link link)) ∧
            fs'.read target = .error (.system .notDirectory))) ∧
    (∀ fs', Course fs target fs' .abandoned → Unchanged fs fs') ∧
    ∀ contents, (∃ fs', Course fs target fs' (.replaced contents)) ↔
      (∃ started, start fs target = .ok started) ∧
        ∃ d name, fs.NamesEntry target d name ∧ fs.entryAt? (d ++ [name]) ≠ some .directory := by
  refine ⟨fun fs' contents h => ?_, fun fs' h => h.holds, fun contents => ⟨?_, ?_⟩⟩
  · obtain ⟨-, d, name, hnames, hdir, hchanged⟩ := h.holds
    exact ⟨d, name, hnames, hchanged, hnames.read_of_changed hdir hchanged⟩
  · rintro ⟨fs', h⟩
    obtain ⟨hstart, d, name, hnames, hdir, -⟩ := h.holds
    exact ⟨hstart, d, name, hnames, hdir⟩
  · rintro ⟨⟨⟨first, r⟩, hstart⟩, d, name, hnames, hdir⟩
    obtain ⟨now, hnow⟩ := Course.exists_underWay hstart contents
    obtain ⟨fs', hfinish, -⟩ := hnow.holds.2.finish_of_destination
      (destination_eq_ok_iff.2 ⟨d, name, hnames, hdir, rfl⟩)
    exact ⟨fs', hnow.finished hfinish⟩

/-- A link is replaced, and the file that it led to is as it was. -/
theorem replacement_all_or_nothing_link :
    let entries := (∅ : Std.TreeMap Location Entry).insert [Path.ofString "old"] (.file [1])
    let fs : FileSystem := ⟨entries.insert [Path.ofString "l"] (.link (Path.ofString "old")), []⟩
    ∃ fs', Course fs (Path.ofString "./l") fs' (.replaced [[2], [], [3, 4]]) ∧
      fs'.entryAt? [Path.ofString "l"] = some (.file [2, 3, 4]) ∧
      fs'.entryAt? [Path.ofString "old"] = some (.file [1]) := by
  intro entries fs
  have hnames : fs.NamesEntry (Path.ofString "./l") [] (Path.ofString "l") :=
    lastStep_eq_ok_iff.1 (by decide +kernel)
  have hlink : fs.entryAt? ([] ++ [Path.ofString "l"]) ≠ some .directory := by decide +kernel
  obtain ⟨hreplaced, -, hcan⟩ := replacement_all_or_nothing fs (Path.ofString "./l")
  obtain ⟨fs', hcourse⟩ := (hcan [[2], [], [3, 4]]).2 ⟨⟨_, rfl⟩, [], _, hnames, hlink⟩
  obtain ⟨d, name, hnames', hchanged, -⟩ := hreplaced fs' _ hcourse
  obtain ⟨rfl, rfl⟩ := hnames.unique hnames'
  refine ⟨fs', hcourse, hchanged.changed, ?_⟩
  rw [hchanged.kept _ (by decide)]
  decide +kernel

/-- The link `l` leads to a directory, so `l/../l` names the link and passes through it. -/
example :
    let entries := (∅ : Std.TreeMap Location Entry).insert [Path.ofString "d"] .directory
    let fs : FileSystem := ⟨entries.insert [Path.ofString "l"] (.link (Path.ofString "d")), []⟩
    (match start fs (Path.ofString "l/../l") with
    | .ok (now, r) => (finish now r).2.read (Path.ofString "l/../l")
    | .error (_, fault) => .error fault) = .error (.system .notDirectory) := by
  decide +kernel

end Replacement
end Rollup
