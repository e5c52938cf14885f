/-
# Looking up a name in a directory

A path that leads to a directory (`Reaches`) is looked up as that directory, and a name
behind it is looked up there: it names the entry at that place (`Reaches.namesEntry_join`),
and finding it ends at the entry unless the entry is a link (`Reaches.find_join`).  The last
step of a path is a name in a directory exactly if the path names an entry there
(`lastStep_eq_ok_iff`).

Trees with the same ways agree on the directories of all paths.  So they agree on which entry
a path names (`NamesEntry.of_sameWays`) and on which paths lead to a directory
(`find_eq_directory_of_sameWays`), whatever files and blind links they hold.
-/

import Rollup.FileSystem.Operations
import Rollup.Proofs.FileSystem.Paths

namespace Rollup
namespace FileSystem

/-- A path leads to a directory, with `k` links left that may be followed. -/
structure Reaches (fs : FileSystem) (p : Path) (k : Nat) (l : Location) : Prop where
  check : checkPath p = .ok ()
  way : Way fs linkLimit (Walk.ofPath fs.workingDirectory p).directory (Path.steps p) k l

/-- A path names an entry of a directory, whether there is one or not: all but the last of its
steps lead to the directory, and the last one is the name. -/
structure NamesEntry (fs : FileSystem) (p : Path) (d : Location) (name : Bytes) : Prop where
  check : checkPath p = .ok ()
  named : IsNamed name
  no_slash : Path.endsInSlash p = false
  way : ∃ before k, Path.steps p = before ++ [name] ∧
    Way fs linkLimit (Walk.ofPath fs.workingDirectory p).directory before k d

theorem checkPath_eq_ok_iff {p : Path} :
    checkPath p = .ok () ↔ 0 ∉ p ∧ p ≠ [] ∧ p.length < pathLimit := by
  unfold checkPath
  by_cases hnul : 0 ∈ p
  · simp [hnul]
  by_cases hnil : p = []
  · simp [hnil]
  by_cases hlong : pathLimit ≤ p.length
  · simp [hnul, hnil, hlong]
  · simp [hnul, hnil, hlong, Nat.lt_of_not_le hlong]

theorem checkPath_eq_error {p : Path} {fault : Fault} (h : checkPath p = .error fault)
    (hp : p ≠ []) : fault = .nulInPath ∨ fault = .system .nameTooLong := by
  unfold checkPath at h
  split at h
  · exact Or.inl (Except.error.inj h).symm
  split at h
  · rename_i hnil
    exact absurd (List.isEmpty_iff.1 hnil) hp
  split at h
  · exact Or.inr (Except.error.inj h).symm
  · cases h

section

variable {fs fs' : FileSystem} {p : Path} {k : Nat} {l : Location} {name : Bytes}

theorem find_of_checkPath (h : checkPath p = .ok ()) :
    fs.find p = match walk fs .find linkLimit (.ofPath fs.workingDirectory p) with
      | .ok (.present location entry) => .ok (location, entry)
      | .ok (.vacant ..) => .error (.system .noEntry)
      | .error fault => .error fault := by
  simp only [find, locate, h]
  cases walk fs .find linkLimit (.ofPath fs.workingDirectory p) with
  | error fault => rfl
  | ok place => cases place <;> rfl

theorem find_of_checkPath_error {fault : Fault} (h : checkPath p = .error fault) :
    fs.find p = .error fault := by
  simp only [find, locate, h]
  rfl

/-- **A path is found to be a directory exactly if it leads to one.** -/
theorem find_eq_directory_iff : fs.find p = .ok (l, .directory) ↔ ∃ k, Reaches fs p k l := by
  constructor
  · intro h
    cases hcheck : checkPath p with
    | error fault =>
      rw [find_of_checkPath_error hcheck] at h
      cases h
    | ok u =>
      rw [find_of_checkPath hcheck] at h
      split at h
      · rename_i location entry hwalk
        obtain ⟨rfl, rfl⟩ := Prod.mk.inj (Except.ok.inj h)
        obtain ⟨k, hway⟩ := exists_way_of_walk hwalk
        exact ⟨k, hcheck, hway⟩
      · cases h
      · cases h
  · rintro ⟨k, hcheck, hway⟩
    have hwalk : walk fs .find linkLimit (.ofPath fs.workingDirectory p) =
        .ok (.present l .directory) := hway.walk
    rw [find_of_checkPath hcheck, hwalk]

theorem isDirectory_iff : fs.isDirectory p = true ↔ ∃ k l, Reaches fs p k l := by
  have hfind : fs.isDirectory p = true ↔ ∃ l, fs.find p = .ok (l, .directory) := by
    unfold isDirectory
    split
    · rename_i l h
      exact iff_of_true rfl ⟨l, h⟩
    · rename_i h
      exact iff_of_false Bool.false_ne_true fun ⟨l, hl⟩ => h l hl
  simp only [hfind, find_eq_directory_iff]
  exact exists_comm

namespace Reaches

theorem ne_nil (h : Reaches fs p k l) : p ≠ [] := (checkPath_eq_ok_iff.1 h.check).2.1

theorem of_sameWays (h : Reaches fs p k l) (hsame : SameWays fs fs')
    (hworking : fs'.workingDirectory = fs.workingDirectory) : Reaches fs' p k l :=
  ⟨h.check, by rw [hworking]; exact (hsame ..).1 h.way⟩

/-- The path of a name is accepted unless it is too long. -/
theorem checkPath_join (h : Reaches fs p k l) (hname : IsEntryName name)
    (hlong : (Path.join p name).length < pathLimit) : checkPath (Path.join p name) = .ok () := by
  refine checkPath_eq_ok_iff.2 ⟨fun hnul => ?_, Path.join_ne_nil h.ne_nil hname, hlong⟩
  rcases Path.mem_join h.ne_nil hname hnul with hp | hslash | hn
  · exact (checkPath_eq_ok_iff.1 h.check).1 hp
  · exact absurd hslash (by decide)
  · exact hname.no_nul hn

theorem ofPath_join (h : Reaches fs p k l) (hname : IsEntryName name) :
    Walk.ofPath fs.workingDirectory (Path.join p name) =
      ⟨(Walk.ofPath fs.workingDirectory p).directory, Path.steps p ++ [name], false⟩ := by
  rw [Walk.ofPath, Path.isAbsolute_join h.ne_nil hname, Path.steps_join h.ne_nil hname,
    Path.endsInSlash_join h.ne_nil hname]
  rfl

section Found

variable (h : Reaches fs p k l) (hname : IsEntryName name)
  (hcheck : checkPath (Path.join p name) = .ok ())

include h hname hcheck

/-- **A name behind a directory is looked up in the directory.** -/
theorem find_join : fs.find (Path.join p name) =
    match walk fs .find k ⟨l, [name], false⟩ with
    | .ok (.present location entry) => .ok (location, entry)
    | .ok (.vacant ..) => .error (.system .noEntry)
    | .error fault => .error fault := by
  rw [find_of_checkPath hcheck, h.ofPath_join hname, h.way.walk_append (List.cons_ne_nil _ _)]

theorem find_join_of_vacant (he : fs.entryAt? (l ++ [name]) = none) :
    fs.find (Path.join p name) = .error (.system .noEntry) := by
  rw [h.find_join hname hcheck, walk_vacant hname.toIsNamed he]
  rfl

theorem find_join_of_leaf {entry : Entry} (he : fs.entryAt? (l ++ [name]) = some entry)
    (hdir : entry ≠ .directory) (hlink : ∀ target, entry ≠ .link target) :
    fs.find (Path.join p name) = .ok (l ++ [name], entry) := by
  rw [h.find_join hname hcheck, walk_leaf hname.toIsNamed he hdir hlink]
  rfl

theorem find_join_of_directory (he : fs.entryAt? (l ++ [name]) = some .directory) :
    fs.find (Path.join p name) = .ok (l ++ [name], .directory) := by
  rw [h.find_join hname hcheck, walk_directory hname.toIsNamed he, walk_nil]

/-- A name that is neither found to be a directory nor given up for its links stands at
no way. -/
theorem noWayThrough (hdir : ∀ l', fs.find (Path.join p name) ≠ .ok (l', .directory))
    (hlinks : fs.find (Path.join p name) ≠ .error (.system .tooManyLinks)) :
    NoWayThrough fs (l ++ [name]) := by
  refine ⟨fun he => hdir _ (h.find_join_of_directory hname hcheck he), fun target he n k' l' hway => ?_⟩
  rw [List.dropLast_concat] at hway
  rw [h.find_join hname hcheck] at hdir hlinks
  cases k with
  | zero =>
    rw [walk_link_zero hname.toIsNamed he] at hlinks
    exact hlinks rfl
  | succ k =>
    rw [walk_link hname.toIsNamed he, Walk.followedBy_nil] at hdir hlinks
    generalize ((Walk.ofPath l target).slash || false) = slash at hdir hlinks
    rcases hway.walk_or_tooManyLinks k with hwalk | hwalk
    · rw [hwalk] at hdir
      exact hdir l' rfl
    · rw [hwalk] at hlinks
      exact hlinks rfl

/-- **A name behind a directory names the entry there.** -/
theorem namesEntry_join : fs.NamesEntry (Path.join p name) l name := by
  have hofPath := h.ofPath_join hname
  refine ⟨hcheck, hname.toIsNamed, congrArg Walk.slash hofPath, Path.steps p, k,
    congrArg Walk.steps hofPath, ?_⟩
  rw [hofPath]
  exact h.way

end Found

end Reaches

/-- **The last step of a path** is a name in a directory exactly if the path names an entry
there. -/
theorem lastStep_eq_ok_iff {d : Location} :
    fs.lastStep p = .ok ⟨d, some name, false⟩ ↔ fs.NamesEntry p d name := by
  constructor
  · intro h
    simp only [lastStep, bind, Except.bind] at h
    split at h
    · cases h
    rename_i hcheck
    split at h
    · cases h
    rename_i last hlast
    split at h
    · cases h
    rename_i place hwalk
    split at h
    · rename_i directory
      split at h
      · cases h
      split at h
      · cases h
      rename_i hdots hlong
      obtain ⟨rfl, hname, hslash⟩ := LastStep.mk.inj (Except.ok.inj h)
      obtain rfl := Option.some.inj hname
      rw [Bool.or_eq_true, decide_eq_true_iff, decide_eq_true_iff, not_or] at hdots
      obtain ⟨before, hsteps⟩ := List.getLast?_eq_some_iff.1 hlast
      obtain ⟨k, hway⟩ := exists_way_of_walk hwalk
      rw [hsteps, List.dropLast_concat] at hway
      exact ⟨hcheck, ⟨hdots.1, hdots.2, Nat.le_of_not_lt hlong⟩, hslash, before, k, hsteps, hway⟩
    · cases h
  · rintro ⟨hcheck, hnamed, hslash, before, k, hsteps, hway⟩
    have hlast : (Path.steps p).getLast? = some name := by rw [hsteps, List.getLast?_concat]
    have hbefore : (Path.steps p).dropLast = before := by rw [hsteps, List.dropLast_concat]
    have hdots : (name = Path.dot || name = Path.dotDot) = false := by
      simp [hnamed.ne_dot, hnamed.ne_dotDot]
    rw [Walk.ofPath] at hway
    simp only [lastStep, hcheck, Walk.ofPath, hlast, hbefore, hslash, bind, Except.bind, hway.walk,
      hdots, if_neg (Nat.not_lt.2 hnamed.fits)]
    rfl

/-- A path names one entry at most. -/
theorem NamesEntry.unique {d d' : Location} {name' : Bytes} (h : fs.NamesEntry p d name)
    (h' : fs.NamesEntry p d' name') : d = d' ∧ name = name' := by
  have hlast := (lastStep_eq_ok_iff.2 h).symm.trans (lastStep_eq_ok_iff.2 h')
  obtain ⟨hd, hname, -⟩ := LastStep.mk.inj (Except.ok.inj hlast)
  exact ⟨hd, Option.some.inj hname⟩

/-- **Which entry a path names depends on the ways only.** -/
theorem NamesEntry.of_sameWays {d : Location} (h : fs.NamesEntry p d name) (hsame : SameWays fs fs')
    (hworking : fs'.workingDirectory = fs.workingDirectory) : fs'.NamesEntry p d name := by
  obtain ⟨before, k, hsteps, hway⟩ := h.way
  exact ⟨h.check, h.named, h.no_slash, before, k, hsteps, by rw [hworking]; exact (hsame ..).1 hway⟩

/-- Which paths lead to a directory, and to which one, depends on the ways only. -/
theorem find_eq_directory_of_sameWays (hsame : SameWays fs fs')
    (hworking : fs'.workingDirectory = fs.workingDirectory) :
    fs'.find p = .ok (l, .directory) ↔ fs.find p = .ok (l, .directory) := by
  rw [find_eq_directory_iff, find_eq_directory_iff]
  exact ⟨fun ⟨k, h⟩ => ⟨k, h.of_sameWays hsame.symm hworking.symm⟩,
    fun ⟨k, h⟩ => ⟨k, h.of_sameWays hsame hworking⟩⟩

end

end FileSystem
end Rollup
