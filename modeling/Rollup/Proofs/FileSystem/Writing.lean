/-
# Writing a file

Writing to a path replaces the content of the file that the path leads to, gives the content
to a device, or puts a new file where the path ends in a free name (`FileSystem.IsWritable`).
Nothing else changes, and a path to anything else is not written at all
(`FileSystem.write_cases`).  So nothing is ever written to a path that leads to a directory,
however it is spelled (`FileSystem.not_isWritable_of_isDirectory`).
-/

import Rollup.Proofs.FileSystem.Replacement

namespace Rollup
namespace FileSystem

/-- The content can be written to the path: what stands at the place then, and where that is. -/
inductive IsWritable (fs : FileSystem) (p : Path) (content : Bytes) : Location → Entry → Prop
  /-- The path leads to a file. -/
  | file {place : Location} {old : Bytes}
      (found : fs.locate .create p = .ok (.present place (.file old))) :
      IsWritable fs p content place (.file content)
  /-- The path ends in a free name of a directory. -/
  | vacant {directory : Location} {name : Bytes}
      (free : fs.locate .create p = .ok (.vacant directory name)) :
      IsWritable fs p content (directory ++ [name]) (.file content)
  /-- The path leads to a device, and it takes what is written to it. -/
  | device {place : Location} {input : Channel} {before : Bytes}
      (found : fs.locate .create p = .ok (.present place (.device ⟨input, .carries before⟩))) :
      IsWritable fs p content place (.device ⟨input, .carries (before ++ content)⟩)

variable {fs fs' : FileSystem} {purpose : Purpose} {p : Path} {place l : Location} {entry : Entry}
  {content : Bytes}

/-! ### What a path leads to is there -/

theorem entryAt?_of_walkSteps {follow : Walk → Except Fault Place} {slash : Bool} {d : Location}
    {steps : List Bytes} (hdir : entry ≠ .directory)
    (hfollow : ∀ w, follow w = .ok (.present l entry) → fs.entryAt? l = some entry)
    (h : walkSteps fs purpose follow slash d steps = .ok (.present l entry)) :
    fs.entryAt? l = some entry := by
  induction steps generalizing d with
  | nil =>
    obtain ⟨-, rfl⟩ := Place.present.inj (Except.ok.inj h)
    exact absurd rfl hdir
  | cons step rest ih =>
    unfold walkSteps at h
    split at h
    · exact ih h
    split at h
    · exact ih h
    split at h
    · cases h
    split at h
    · cases h
    split at h
    · split at h <;> cases h
    · exact ih h
    · exact hfollow _ h
    · rename_i hfound
      split at h
      · obtain ⟨rfl, rfl⟩ := Place.present.inj (Except.ok.inj h)
        exact hfound
      · cases h

theorem entryAt?_of_walk {n : Nat} {w : Walk} (hdir : entry ≠ .directory)
    (h : walk fs purpose n w = .ok (.present l entry)) : fs.entryAt? l = some entry := by
  induction n generalizing w with
  | zero =>
    refine entryAt?_of_walkSteps hdir (fun w hw => ?_) h
    cases hw
  | succ n ih => exact entryAt?_of_walkSteps hdir (fun _ h => ih h) h

/-- **What a path leads to, if it is no directory, stands at its place in the tree.** -/
theorem entryAt?_of_locate (hdir : entry ≠ .directory)
    (h : fs.locate purpose p = .ok (.present l entry)) : fs.entryAt? l = some entry := by
  unfold locate at h
  cases hcheck : checkPath p with
  | error fault =>
    rw [hcheck] at h
    cases h
  | ok u =>
    rw [hcheck] at h
    exact entryAt?_of_walk hdir h

/-! ### Writing -/

theorem ne_nil_of_locate (hdir : entry ≠ .directory)
    (h : fs.locate purpose p = .ok (.present place entry)) : place ≠ [] := by
  rintro rfl
  have hroot := entryAt?_of_locate hdir h
  rw [entryAt?, if_pos rfl] at hroot
  exact hdir (Option.some.inj hroot).symm

theorem IsWritable.ne_nil (h : fs.IsWritable p content place entry) : place ≠ [] := by
  cases h with
  | file found | device found => exact ne_nil_of_locate Entry.noConfusion found
  | vacant => simp

/-- **What writing does.**  The content comes to stand where the path can be written and nothing
else changes, or the path cannot be written. -/
theorem write_cases (fs : FileSystem) (p : Path) (content : Bytes) :
    (∃ fs' place entry, fs.write p content = .ok fs' ∧ fs.IsWritable p content place entry ∧
      Changed fs fs' place (some entry)) ∨
    ∃ fault, fs.write p content = .error fault ∧
      ∀ place entry, ¬fs.IsWritable p content place entry := by
  have hinsert : ∀ {place entry}, fs.IsWritable p content place entry →
      Changed fs (fs.insert place entry) place (some entry) := fun h => .insert fs _ h.ne_nil
  unfold write
  cases hplace : fs.locate .create p with
  | error fault =>
    refine Or.inr ⟨fault, rfl, fun place entry h => ?_⟩
    cases h with
    | file found | vacant found | device found => cases hplace.symm.trans found
  | ok found =>
    cases found with
    | vacant d name => exact Or.inl ⟨_, _, _, rfl, .vacant hplace, hinsert (.vacant hplace)⟩
    | present l entry =>
      cases entry with
      | file old => exact Or.inl ⟨_, _, _, rfl, .file hplace, hinsert (.file hplace)⟩
      | device d =>
        obtain ⟨input, ⟨before⟩ | ⟨error⟩⟩ := d
        · exact Or.inl ⟨_, _, _, rfl, .device hplace, hinsert (.device hplace)⟩
        · refine Or.inr ⟨_, rfl, fun place entry h => ?_⟩
          cases h with
          | file found | vacant found | device found => cases hplace.symm.trans found
      | directory | link | socket =>
        refine Or.inr ⟨_, rfl, fun place entry h => ?_⟩
        cases h with
        | file found | vacant found | device found => cases hplace.symm.trans found

/-! ### Directories are not written -/

section Directories

variable {n k : Nat} {d : Location} {step : Bytes} {steps rest : List Bytes} {slash : Bool}

/-- Looking for a place to write, a walk goes on through a directory, unless a slash ends it. -/
theorem walk_create_directory (h : IsNamed step) (he : fs.entryAt? (d ++ [step]) = some .directory) :
    walk fs .create n ⟨d, step :: rest, slash⟩ = .error (.system .isDirectory) ∨
      walk fs .create n ⟨d, step :: rest, slash⟩ = walk fs .create n ⟨d ++ [step], rest, slash⟩ := by
  have hfits : ¬nameLimit < step.length := Nat.not_lt.2 h.fits
  by_cases hslash : (rest.isEmpty && slash) = true
  · exact Or.inl (by cases n <;> simp [walk, walkSteps, h.ne_dot, h.ne_dotDot, hslash])
  · exact Or.inr (by cases n <;> simp [walk, walkSteps, h.ne_dot, h.ne_dotDot, hslash, hfits, he])

theorem walk_create_link {target : Path} (h : IsNamed step)
    (he : fs.entryAt? (d ++ [step]) = some (.link target)) :
    walk fs .create (n + 1) ⟨d, step :: rest, slash⟩ = .error (.system .isDirectory) ∨
      walk fs .create (n + 1) ⟨d, step :: rest, slash⟩ =
        walk fs .create n ((Walk.ofPath d target).followedBy rest slash) := by
  have hfits : ¬nameLimit < step.length := Nat.not_lt.2 h.fits
  by_cases hslash : (rest.isEmpty && slash) = true
  · exact Or.inl (by simp [walk, walkSteps, h.ne_dot, h.ne_dotDot, hslash])
  · exact Or.inr (by simp [walk, walkSteps, h.ne_dot, h.ne_dotDot, hslash, hfits, he])

/-- Along a way to a directory there is no place to write. -/
theorem Way.walk_create (h : Way fs n d steps k l) (slash : Bool) :
    FileSystem.walk fs .create n ⟨d, steps, slash⟩ = .error (.system .isDirectory) ∨
      FileSystem.walk fs .create n ⟨d, steps, slash⟩ = .ok (.present l .directory) := by
  induction h generalizing slash with
  | here => exact Or.inr walk_nil
  | dot _ ih => rw [walk_dot]; exact ih slash
  | up _ ih => rw [walk_dotDot]; exact ih slash
  | down name entry _ ih =>
    rcases walk_create_directory name entry with h | h
    · exact Or.inl h
    · rw [h]; exact ih slash
  | link name entry _ ih =>
    rcases walk_create_link name entry with h | h
    · exact Or.inl h
    · rw [h]; exact ih _

/-- **Nothing is written to a path that leads to a directory.** -/
theorem not_isWritable_of_isDirectory (h : fs.isDirectory p = true) (place : Location)
    (entry : Entry) : ¬fs.IsWritable p content place entry := by
  obtain ⟨k, l, hcheck, hway⟩ := isDirectory_iff.1 h
  have hlocate : fs.locate .create p = walk fs .create linkLimit (.ofPath fs.workingDirectory p) := by
    rw [locate, hcheck]
    rfl
  have hwalk := hway.walk_create (Path.endsInSlash p)
  intro hwritable
  cases hwritable with
  | file found | vacant found | device found =>
    rw [hlocate] at found
    rcases hwalk with hwalk | hwalk <;> cases hwalk.symm.trans found

end Directories

end FileSystem
end Rollup
