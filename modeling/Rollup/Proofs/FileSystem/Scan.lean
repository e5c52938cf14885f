/-
# What a scan lists

The names in a directory are those with an entry, each once and in the order of their
bytes (`FileSystem.mem_children`, `FileSystem.ordered_children`).  A scan goes by what a name
stands for (`Scan.StandsFor`), and lists it, as pending or as unusable, unless it is hidden or
stands for a directory (`Scan.isSome_listed?_iff`); a link back to the scanned directory is
listed.  So trees with the same ways list the same names, but for those that have come or gone
(`Scan.listed?_congr`).
-/

import Rollup.FileSystem.Scan
import Rollup.Proofs.FileSystem.Lookup
import Rollup.Proofs.Ordered

namespace Rollup

/-! ### The names in a directory -/

namespace FileSystem

variable {fs fs' : FileSystem} {d : Location} {name : Bytes} {names : List Bytes}

theorem mem_children : name ∈ fs.children d ↔ fs.entryAt? (d ++ [name]) ≠ none := by
  have hne : d ++ [name] ≠ [] := by simp
  have hkey : fs.entryAt? (d ++ [name]) ≠ none ↔ d ++ [name] ∈ fs.entries.keys := by
    rw [entryAt?, if_neg hne, Std.TreeMap.mem_keys, Std.TreeMap.mem_iff_isSome_getElem?,
      Option.isSome_iff_ne_none]
  rw [hkey, children, List.mem_filterMap]
  constructor
  · rintro ⟨l, hl, hname⟩
    split at hname
    · rename_i hd
      obtain ⟨init, rfl⟩ := List.getLast?_eq_some_iff.1 hname
      rw [List.dropLast_concat] at hd
      exact hd ▸ hl
    · cases hname
  · exact fun hl => ⟨_, hl, by rw [List.dropLast_concat, if_pos rfl, List.getLast?_concat]⟩

theorem compare_self_eq (x : Bytes) : compare x x = .eq := @Std.ReflCmp.compare_self Bytes compare _ x

theorem compare_concat (d : Location) (x y : Bytes) :
    compare (d ++ [x]) (d ++ [y]) = compare x y := by
  induction d with
  | nil => rw [List.nil_append, List.nil_append, List.compare_cons_cons]; simp
  | cons z d ih =>
    rw [List.cons_append, List.cons_append, List.compare_cons_cons, ih, compare_self_eq,
      Ordering.eq_then]

/-- **Names come in the order of their bytes**, each once. -/
theorem ordered_children (fs : FileSystem) (d : Location) :
    (fs.children d).Pairwise fun x y => compare x y = .lt := by
  refine List.pairwise_filterMap.2 (fs.entries.ordered_keys.imp fun {l l'} h x hx y hy => ?_)
  have hconcat : ∀ (l : Location) z,
      (if l.dropLast = d then l.getLast? else none) = some z → l = d ++ [z] := by
    intro l z hz
    split at hz
    · rename_i hd
      obtain ⟨init, rfl⟩ := List.getLast?_eq_some_iff.1 hz
      rw [← hd, List.dropLast_concat]
    · cases hz
  rwa [hconcat l x hx, hconcat l' y hy, compare_concat] at h

theorem nodup_children (fs : FileSystem) (d : Location) : (fs.children d).Nodup :=
  (ordered_children fs d).imp fun h e => by
    rw [e, compare_self_eq] at h
    cases h

/-- An ordered list with the right names is the list of names. -/
theorem children_eq (hmem : ∀ name, name ∈ names ↔ fs.entryAt? (d ++ [name]) ≠ none)
    (hordered : names.Pairwise fun x y => compare x y = .lt) : fs.children d = names :=
  eq_of_ascending id (ordered_children fs d) hordered fun name =>
    mem_children.trans (hmem name).symm

end FileSystem

/-! ### Findings -/

namespace Scan

open FileSystem

/-- The name under which an entry is listed, as pending or as unusable. -/
def Finding.listed? : Finding → Option String
  | .pending file => some file.name
  | .unreadable name _ | .notText _ name | .irregular name => some name
  | .hidden _ | .hiddenUnreadable | .directory _ => none

/-- What a scan finds under some names of a directory. -/
def findingsOf (fs : FileSystem) (root : Path) (location : Location) (names : List Bytes) :
    List Finding := names.map (inspect fs root location)

/-- The names of the pending files among findings. -/
def pendingNames (findings : List Finding) : List String :=
  (findings.filterMap Finding.pending?).map PendingFile.name

/-- A name is listed as pending or as unusable. -/
theorem perm_listed (findings : List Finding) :
    (pendingNames findings ++ (findings.filterMap Finding.unusable?).map Unusable.name).Perm
      (findings.filterMap Finding.listed?) := by
  induction findings with
  | nil => exact .nil
  | cons finding rest ih =>
    cases finding with
    | pending file => exact ih.cons _
    | unreadable name reason | notText path name | irregular name =>
      exact List.perm_middle.trans (ih.cons _)
    | hidden name | hiddenUnreadable | directory name => exact ih

/-! ### What a child stands for -/

/-- What the child `name` of the directory `location` stands for, which was reached by the path
`root`, and where that is. -/
inductive StandsFor (fs : FileSystem) (root : Path) (location : Location) (name : Bytes) :
    Location → Entry → Prop
  | itself {entry : Entry} (child : fs.entryAt? (location ++ [name]) = some entry)
      (no_link : ∀ target, entry ≠ .link target) :
      StandsFor fs root location name (location ++ [name]) entry
  | link {target : Path} {place : Location} {entry : Entry}
      (child : fs.entryAt? (location ++ [name]) = some (.link target))
      (leads : fs.find (Path.join root name) = .ok (place, entry)) :
      StandsFor fs root location name place entry

/-- A name stands for a directory, itself or by a link that leads elsewhere. -/
def StandsForDirectory (fs : FileSystem) (root : Path) (location : Location) (name : Bytes) : Prop :=
  fs.entryAt? (location ++ [name]) = some .directory ∨
    (∃ target, fs.entryAt? (location ++ [name]) = some (.link target)) ∧
      ∃ l, l ≠ location ∧ fs.find (Path.join root name) = .ok (l, .directory)

variable {fs fs' : FileSystem} {root : Path} {location : Location} {name : Bytes} {text : String}

theorem below_ne (location : Location) (name : Bytes) : location ++ [name] ≠ location := by simp

/-- **The target of a child is what it stands for**, except for the scanned directory itself. -/
theorem target_eq_ok_iff {entry : Entry} : target fs root location name = .ok entry ↔
    (∃ place, place ≠ location ∧ StandsFor fs root location name place entry) ∨
      fs.entryAt? (location ++ [name]) = none ∧ entry = .socket := by
  unfold target
  constructor
  · intro h
    cases he : fs.entryAt? (location ++ [name]) with
    | none =>
      rw [he] at h
      exact Or.inr ⟨rfl, (Except.ok.inj h).symm⟩
    | some child =>
      rw [he] at h
      refine Or.inl ?_
      cases child with
      | link t =>
        dsimp only at h
        split at h
        · cases h
        split at h
        · cases h
        · rename_i hfind hl
          obtain rfl := Except.ok.inj h
          exact ⟨_, hl, .link he hfind⟩
      | directory | file | socket | device =>
        obtain rfl := Except.ok.inj h
        exact ⟨_, below_ne _ _, .itself he fun _ => Entry.noConfusion⟩
  · rintro (⟨place, hplace, hstands⟩ | ⟨he, rfl⟩)
    · cases hstands with
      | itself child no_link =>
        cases entry with
        | link t => exact absurd rfl (no_link t)
        | directory | file | socket | device => simp only [child]
      | link child leads => simp only [child, leads, if_neg hplace]
    · simp only [he]

theorem standsForDirectory_iff : StandsForDirectory fs root location name ↔
    ∃ place, place ≠ location ∧ StandsFor fs root location name place .directory := by
  constructor
  · rintro (he | ⟨⟨t, he⟩, place, hplace, hfind⟩)
    · exact ⟨_, below_ne _ _, .itself he fun _ => Entry.noConfusion⟩
    · exact ⟨place, hplace, .link he hfind⟩
  · rintro ⟨place, hplace, hstands⟩
    cases hstands with
    | itself child => exact Or.inl child
    | link child leads => exact Or.inr ⟨⟨_, child⟩, place, hplace, leads⟩

theorem target_eq_directory_iff :
    target fs root location name = .ok .directory ↔ StandsForDirectory fs root location name := by
  rw [target_eq_ok_iff, standsForDirectory_iff]
  exact or_iff_left fun h => Entry.noConfusion h.2

theorem target_eq_file_iff {content : Bytes} : target fs root location name = .ok (.file content) ↔
    ∃ place, place ≠ location ∧ StandsFor fs root location name place (.file content) := by
  rw [target_eq_ok_iff]
  exact or_iff_left fun h => Entry.noConfusion h.2

/-! ### What is listed -/

/-- A directory is passed over. -/
theorem listed?_of_directory (h : StandsForDirectory fs root location name) :
    (inspect fs root location name).listed? = none := by
  simp only [inspect, target_eq_directory_iff.2 h]
  split <;> rfl

/-- Everything else that is not hidden is listed. -/
theorem listed?_of_not_directory (hhidden : isHidden name = false)
    (h : ¬StandsForDirectory fs root location name) :
    (inspect fs root location name).listed? = some (Utf8.display name) := by
  have hdisplay : ∀ text, Utf8.decode? name = some text → Utf8.display name = text := by
    intro text ht
    rw [Utf8.display, ht]
  have htarget := mt target_eq_directory_iff.1 h
  unfold inspect
  cases hwhat : target fs root location name with
  | error reason => simp [hhidden, Finding.listed?]
  | ok entry =>
    rw [hwhat] at htarget
    simp only [hhidden, Bool.false_eq_true, if_false]
    cases entry with
    | directory => exact absurd rfl htarget
    | file content | link t | socket | device d =>
      cases htext : Utf8.decode? name with
      | none => rfl
      | some text => rw [hdisplay text htext]; rfl

theorem listed?_of_hidden (hhidden : isHidden name = true) :
    (inspect fs root location name).listed? = none := by
  unfold inspect
  cases target fs root location name with
  | error reason => simp [hhidden, Finding.listed?]
  | ok entry => simp [hhidden, Finding.listed?]

/-- **What is listed** is neither hidden nor stands for a directory. -/
theorem isSome_listed?_iff : (inspect fs root location name).listed?.isSome = true ↔
    isHidden name = false ∧ ¬StandsForDirectory fs root location name := by
  cases hhidden : isHidden name with
  | true => simp [listed?_of_hidden hhidden]
  | false =>
    by_cases hdir : StandsForDirectory fs root location name
    · simp [listed?_of_directory hdir, hdir]
    · simp [listed?_of_not_directory hhidden hdir, hdir]

/-- What is listed is pending or unusable, and not both. -/
theorem Finding.isSome_unusable?_iff {finding : Finding} : finding.unusable?.isSome = true ↔
    finding.listed?.isSome = true ∧ ∀ file, finding ≠ .pending file := by
  cases finding <;> simp [Finding.unusable?, Finding.listed?]

/-- An unusable entry has the name as shown. -/
theorem name_of_unusable {entry : Unusable}
    (h : (inspect fs root location name).unusable? = some entry) : entry.name = Utf8.display name := by
  have hlisted : (inspect fs root location name).listed? = some entry.name := by
    revert h
    cases inspect fs root location name <;> rintro ⟨⟩ <;> rfl
  obtain ⟨hhidden, hdir⟩ := isSome_listed?_iff.1 (by rw [hlisted]; rfl)
  exact Option.some.inj (hlisted.symm.trans (listed?_of_not_directory hhidden hdir))

theorem standsForDirectory_congr (root : Path) (hsame : SameWays fs fs')
    (hworking : fs'.workingDirectory = fs.workingDirectory)
    (he : fs'.entryAt? (location ++ [name]) = fs.entryAt? (location ++ [name])) :
    StandsForDirectory fs' root location name ↔ StandsForDirectory fs root location name := by
  simp only [StandsForDirectory, he, find_eq_directory_of_sameWays hsame hworking]

/-- **An entry that stays is listed as before**, if all ways are kept. -/
theorem listed?_congr (hsame : SameWays fs fs')
    (hworking : fs'.workingDirectory = fs.workingDirectory)
    (he : fs'.entryAt? (location ++ [name]) = fs.entryAt? (location ++ [name])) :
    (inspect fs' root location name).listed? = (inspect fs root location name).listed? := by
  cases hhidden : isHidden name with
  | true => rw [listed?_of_hidden hhidden, listed?_of_hidden hhidden]
  | false =>
    have hdir := standsForDirectory_congr root hsame hworking he
    by_cases h : StandsForDirectory fs root location name
    · rw [listed?_of_directory h, listed?_of_directory (hdir.2 h)]
    · rw [listed?_of_not_directory hhidden h, listed?_of_not_directory hhidden (mt hdir.1 h)]

/-- **A name is found pending** exactly if it is not hidden, is text and has a file as its
target. -/
theorem inspect_eq_pending_iff {file : PendingFile} :
    inspect fs root location name = .pending file ↔ isHidden name = false ∧
      ∃ text, Utf8.decode? name = some text ∧
        (∃ content, target fs root location name = .ok (.file content)) ∧
        file = ⟨text, Path.join root name, sizeOf fs (Path.join root name)⟩ := by
  unfold inspect
  cases target fs root location name with
  | error reason => cases isHidden name <;> simp
  | ok entry =>
    cases isHidden name with
    | true => simp
    | false => cases entry <;> cases Utf8.decode? name <;> simp [eq_comm]

/-- What is pending stands for a file. -/
theorem exists_standsFor_of_pending {file : PendingFile}
    (h : inspect fs root location name = .pending file) :
    ∃ place content, StandsFor fs root location name place (.file content) := by
  obtain ⟨-, -, -, ⟨content, htarget⟩, -⟩ := inspect_eq_pending_iff.1 h
  obtain ⟨place, -, hstands⟩ := target_eq_file_iff.1 htarget
  exact ⟨place, content, hstands⟩

/-- A pending name is the text of the name that was inspected. -/
theorem name_of_pending {file : PendingFile} (h : inspect fs root location name = .pending file) :
    Utf8.encode file.name = name ∧ isHidden name = false := by
  obtain ⟨hvisible, text, htext, -, rfl⟩ := inspect_eq_pending_iff.1 h
  exact ⟨Utf8.encode_of_decode? htext, hvisible⟩

/-! ### The names that a scan gives -/

theorem pendingNames_cons (finding : Finding) (rest : List Finding) :
    pendingNames (finding :: rest) =
      (finding.pending?.map PendingFile.name).toList ++ pendingNames rest := by
  cases finding <;> rfl

theorem pending?_inspect
    (h : (inspect fs root location name).pending?.map PendingFile.name = some text) :
    Utf8.encode text = name ∧ isHidden name = false := by
  cases hwhat : inspect fs root location name with
  | pending file =>
    rw [hwhat] at h
    obtain rfl := Option.some.inj h
    exact name_of_pending hwhat
  | _ => rw [hwhat] at h; cases h

/-- The pending names are among those of the directory, in their order. -/
theorem sublist_pendingNames (fs : FileSystem) (root : Path) (location : Location)
    (names : List Bytes) :
    ((pendingNames (findingsOf fs root location names)).map Utf8.encode).Sublist names := by
  induction names with
  | nil => exact .slnil
  | cons name rest ih =>
    rw [findingsOf, List.map_cons, ← findingsOf, pendingNames_cons]
    cases hwhat : (inspect fs root location name).pending?.map PendingFile.name with
    | none => exact ih.cons _
    | some text =>
      rw [Option.toList_some, List.singleton_append, List.map_cons, (pending?_inspect hwhat).1]
      exact ih.cons_cons _

theorem pending?_eq_some_iff {finding : Finding} {file : PendingFile} :
    finding.pending? = some file ↔ finding = .pending file := by
  cases finding <;> simp [Finding.pending?]

theorem exists_pending_of_mem {names : List Bytes}
    (h : text ∈ pendingNames (findingsOf fs root location names)) :
    Utf8.encode text ∈ names ∧ isHidden (Utf8.encode text) = false ∧
      ∃ file, inspect fs root location (Utf8.encode text) = .pending file := by
  obtain ⟨file, hfile, rfl⟩ := List.mem_map.1 h
  obtain ⟨finding, hfinding, hpending⟩ := List.mem_filterMap.1 hfile
  obtain ⟨name, hname, hwhat⟩ := List.mem_map.1 hfinding
  rw [pending?_eq_some_iff.1 hpending] at hwhat
  obtain ⟨rfl, hhidden⟩ := name_of_pending hwhat
  exact ⟨hname, hhidden, file, hwhat⟩

theorem nodup_pendingNames {names : List Bytes} (h : names.Nodup) :
    (pendingNames (findingsOf fs root location names)).Nodup :=
  ((sublist_pendingNames fs root location names).nodup h).of_map _

/-- Some names left out, their pending files are missing. -/
theorem pendingNames_filter (p : Bytes → Bool) (names : List Bytes) :
    pendingNames (findingsOf fs root location (names.filter p)) =
      (pendingNames (findingsOf fs root location names)).filter fun text => p (Utf8.encode text) := by
  induction names with
  | nil => rfl
  | cons name rest ih =>
    rw [findingsOf, findingsOf, List.map_cons, pendingNames_cons, List.filter_append, ← findingsOf,
      ← findingsOf, ← ih]
    cases hwhat : (inspect fs root location name).pending?.map PendingFile.name with
    | none => cases hp : p name <;> simp [hp, findingsOf, pendingNames_cons, hwhat]
    | some text =>
      have hname := (pending?_inspect hwhat).1
      cases hp : p name <;> simp [hp, hname, findingsOf, pendingNames_cons, hwhat]

/-- The unusable entries have the names that are found unusable, as shown and in their order. -/
theorem map_name_unusable (names : List Bytes) :
    ((findingsOf fs root location names).filterMap Finding.unusable?).map Unusable.name =
      (names.filter fun name => (inspect fs root location name).unusable?.isSome).map Utf8.display := by
  induction names with
  | nil => rfl
  | cons name rest ih =>
    rw [findingsOf, List.map_cons, List.filterMap_cons, ← findingsOf]
    cases hwhat : (inspect fs root location name).unusable? with
    | none => rw [List.filter_cons_of_neg (by simp [hwhat]), ← ih]
    | some entry =>
      rw [List.filter_cons_of_pos (by simp [hwhat]), List.map_cons, List.map_cons, ← ih,
        name_of_unusable hwhat]

/-- Pending files left out, the unusable entries stay. -/
theorem unusable_filter {p : Bytes → Bool} {names : List Bytes}
    (h : ∀ name ∈ names, p name = false → ∃ file, inspect fs root location name = .pending file) :
    (findingsOf fs root location (names.filter p)).filterMap Finding.unusable? =
      (findingsOf fs root location names).filterMap Finding.unusable? := by
  induction names with
  | nil => rfl
  | cons name rest ih =>
    have ih := ih fun n hn => h n (List.mem_cons_of_mem _ hn)
    cases hp : p name with
    | true =>
      rw [List.filter_cons_of_pos hp, findingsOf, findingsOf, List.map_cons, List.map_cons,
        List.filterMap_cons, List.filterMap_cons, ← findingsOf, ← findingsOf, ih]
    | false =>
      obtain ⟨file, hfile⟩ := h name (List.mem_cons_self ..) hp
      have hnone : (findingsOf fs root location (name :: rest)).filterMap Finding.unusable? =
          (findingsOf fs root location rest).filterMap Finding.unusable? := by
        rw [findingsOf, List.map_cons, hfile]
        rfl
      rw [List.filter_cons_of_neg (by simp [hp]), hnone, ih]

/-- A file with a name that is text and not hidden is pending. -/
theorem inspect_of_file {text : String} {content : Bytes}
    (hhidden : isHidden (Utf8.encode text) = false)
    (he : fs.entryAt? (location ++ [Utf8.encode text]) = some (.file content)) :
    inspect fs root location (Utf8.encode text) =
      .pending ⟨text, Path.join root (Utf8.encode text),
        sizeOf fs (Path.join root (Utf8.encode text))⟩ := by
  have htarget : target fs root location (Utf8.encode text) = .ok (.file content) := by
    simp only [target, he]
  simp only [inspect, htarget, hhidden, Bool.false_eq_true, if_false, Utf8.decode?_encode]

end Scan

namespace FileSystem

variable {fs : FileSystem} {root : Path} {l : Location}

/-- What a scan finds in a directory. -/
theorem scan?_of_find (h : fs.find root = .ok (l, .directory)) :
    fs.scan? root = some {
      files := (Scan.findingsOf fs root l (fs.children l)).filterMap Scan.Finding.pending?
      unusable := (Scan.findingsOf fs root l (fs.children l)).filterMap Scan.Finding.unusable? } := by
  rw [scan?, findings?, h]
  rfl

end FileSystem
end Rollup
