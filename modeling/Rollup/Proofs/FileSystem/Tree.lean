/-
# Trees of files

In a tree the entries have proper names, the parent of an entry is a directory, and so is
the working directory (`FileSystem.IsTree`).  So every directory of a tree is reached from
the root by its own names.  Once this is known of the working directory, a path that leads
somewhere leads there as well when it is made absolute
(`FileSystem.IsRooted.reaches_absolute`).
-/

import Mathlib.Data.List.Induction
import Rollup.Proofs.FileSystem.Lookup

namespace Rollup
namespace FileSystem

/-- The entries have names that entries can have. -/
def IsProperlyNamed (fs : FileSystem) : Prop :=
  ∀ l entry, fs.entryAt? l = some entry → ∀ name ∈ l, IsEntryName name

theorem IsProperlyNamed.isEntryName {fs : FileSystem} (h : fs.IsProperlyNamed) {d : Location}
    {name : Bytes} (hchild : fs.entryAt? (d ++ [name]) ≠ none) : IsEntryName name := by
  obtain ⟨entry, hentry⟩ := Option.ne_none_iff_exists'.1 hchild
  exact h _ _ hentry _ (List.mem_append_right _ (List.mem_singleton_self _))

/-- The entries form a tree. -/
structure IsTree (fs : FileSystem) : Prop where
  names : fs.IsProperlyNamed
  parents : ∀ l name entry, fs.entryAt? (l ++ [name]) = some entry → fs.entryAt? l = some .directory
  workingDirectory : fs.entryAt? fs.workingDirectory = some .directory

/-- The working directory is reached from the root by its names. -/
structure IsRooted (fs : FileSystem) : Prop where
  names : ∀ name ∈ fs.workingDirectory, IsEntryName name
  way : ∀ n, Way fs n [] fs.workingDirectory n fs.workingDirectory

theorem IsRooted.of_sameWays {fs fs' : FileSystem} (h : fs.IsRooted) (hsame : SameWays fs fs')
    (hworking : fs'.workingDirectory = fs.workingDirectory) : fs'.IsRooted :=
  ⟨hworking ▸ h.names, fun n => hworking ▸ (hsame ..).1 (h.way n)⟩

theorem mem_keys_of_entryAt? {fs : FileSystem} {l : Location} {entry : Entry} (hl : l ≠ [])
    (h : fs.entryAt? l = some entry) : l ∈ fs.entries.keys := by
  rw [entryAt?, if_neg hl] at h
  exact Std.TreeMap.mem_keys.2 (Std.TreeMap.mem_iff_isSome_getElem?.2 (by rw [h]; rfl))

theorem isProperlyNamed_of_keys {fs : FileSystem}
    (h : ∀ l ∈ fs.entries.keys, ∀ name ∈ l, IsEntryName name) : fs.IsProperlyNamed := by
  intro l entry hl
  by_cases hnil : l = []
  · rw [hnil]
    exact fun name hname => absurd hname List.not_mem_nil
  · exact h l (mem_keys_of_entryAt? hnil hl)

theorem isTree_of_keys {fs : FileSystem}
    (hnames : ∀ l ∈ fs.entries.keys, ∀ name ∈ l, IsEntryName name)
    (hparents : ∀ l ∈ fs.entries.keys, fs.entryAt? l.dropLast = some .directory)
    (hworking : fs.entryAt? fs.workingDirectory = some .directory) : fs.IsTree where
  names := isProperlyNamed_of_keys hnames
  parents l name entry h := by
    have hparent := hparents _ (mem_keys_of_entryAt? (by simp) h)
    rwa [List.dropLast_concat] at hparent
  workingDirectory := hworking

theorem absolutePath_concat (l : Location) (name : Bytes) :
    absolutePath (l ++ [name]) = absolutePath l ++ Path.slash :: name := by
  simp [absolutePath]

theorem steps_absolutePath {l : Location} (h : ∀ name ∈ l, IsEntryName name) :
    Path.steps (absolutePath l) = l := by
  induction l using List.reverseRecOn with
  | nil => rfl
  | append_singleton l name ih =>
    rw [absolutePath_concat, Path.steps_append_slash, ih fun n hn => h n (by simp [hn]),
      Path.steps_of_isEntryName (h name (by simp))]

theorem isAbsolute_absolutePath {l : Location} (hl : l ≠ []) (p : Path) :
    Path.isAbsolute (absolutePath l ++ p) = true := by
  cases l with
  | nil => exact absurd rfl hl
  | cons name l => rfl

theorem nul_not_mem_absolutePath {l : Location} (h : ∀ name ∈ l, IsEntryName name) :
    0 ∉ absolutePath l := by
  intro hnul
  obtain ⟨name, hname, hmem⟩ := List.mem_flatMap.1 hnul
  rcases List.mem_cons.1 hmem with hslash | hmem
  · exact absurd hslash (by decide)
  · exact (h name hname).no_nul hmem

theorem endsInSlash_absolutePath {l : Location} (h : ∀ name ∈ l, IsEntryName name) :
    Path.endsInSlash (absolutePath l) = false := by
  induction l using List.reverseRecOn with
  | nil => rfl
  | append_singleton l name _ =>
    have hname := h name (by simp)
    have hlast : (absolutePath (l ++ [name])).getLast? = name.getLast? := by
      rw [absolutePath_concat, List.getLast?_append, List.getLast?_cons,
        List.getLast?_eq_some_getLast hname.ne_nil]
      rfl
    rw [Path.endsInSlash, hlast]
    exact beq_false_of_ne fun e => hname.no_slash (List.mem_of_getLast? e)

variable {fs : FileSystem} {k : Nat} {p : Path} {l : Location}

/-- A directory of a tree is reached from the root by its names. -/
theorem IsTree.way (h : fs.IsTree) (hl : fs.entryAt? l = some .directory) (n : Nat) :
    Way fs n [] l n l := by
  induction l using List.reverseRecOn with
  | nil => exact .here
  | append_singleton l name ih =>
    have hname := h.names _ _ hl name (by simp)
    exact (ih (h.parents _ _ _ hl)).append (.down hname.toIsNamed hl .here)

theorem IsTree.isRooted (h : fs.IsTree) : fs.IsRooted :=
  ⟨h.names _ _ h.workingDirectory, h.way h.workingDirectory⟩

/-- **An absolute path leads where the path it was made of leads.** -/
theorem IsRooted.reaches_absolute (h : fs.IsRooted) (hp : p ≠ []) (hnul : 0 ∉ p)
    (hway : Way fs linkLimit (Walk.ofPath fs.workingDirectory p).directory (Path.steps p) k l)
    (hshort : (Path.join (absolutePath fs.workingDirectory) p).length < pathLimit) :
    Reaches fs (Path.join (absolutePath fs.workingDirectory) p) k l := by
  have hnames := h.names
  by_cases hplain : Path.isAbsolute p = true ∨ fs.workingDirectory = []
  · have hjoin : Path.join (absolutePath fs.workingDirectory) p = p := by
      unfold Path.join
      refine if_pos ?_
      rcases hplain with habs | hroot
      · rw [habs]; rfl
      · rw [hroot, Bool.or_eq_true]; exact Or.inr rfl
    rw [hjoin] at hshort ⊢
    exact ⟨checkPath_eq_ok_iff.2 ⟨hnul, hp, hshort⟩, hway⟩
  · obtain ⟨habs, hroot⟩ := not_or.1 hplain
    have habs : Path.isAbsolute p = false := Bool.eq_false_iff.2 habs
    have hne : (absolutePath fs.workingDirectory).isEmpty = false := by
      cases hw : fs.workingDirectory with
      | nil => exact absurd hw hroot
      | cons name w => rfl
    have hjoin : Path.join (absolutePath fs.workingDirectory) p =
        absolutePath fs.workingDirectory ++ Path.slash :: p := by
      rw [Path.join, habs, hne, endsInSlash_absolutePath hnames]
      rfl
    rw [hjoin] at hshort ⊢
    refine ⟨checkPath_eq_ok_iff.2 ⟨fun hmem => ?_, by simp, hshort⟩, ?_⟩
    · rcases List.mem_append.1 hmem with hmem | hmem
      · exact nul_not_mem_absolutePath hnames hmem
      · rcases List.mem_cons.1 hmem with hslash | hmem
        · exact absurd hslash (by decide)
        · exact hnul hmem
    · have hstart : (Walk.ofPath fs.workingDirectory p).directory = fs.workingDirectory :=
        if_neg (by simp [habs])
      have hfrom : (Walk.ofPath fs.workingDirectory
          (absolutePath fs.workingDirectory ++ Path.slash :: p)).directory = [] :=
        if_pos (isAbsolute_absolutePath hroot _)
      rw [hstart] at hway
      rw [hfrom, Path.steps_append_slash, steps_absolutePath hnames]
      exact (h.way linkLimit).append hway

end FileSystem
end Rollup
