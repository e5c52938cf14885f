/-
# A scan, child by child

A child of a directory stands for an entry: a link for the one that its path leads to, anything
else for itself (`Scan.StandsFor`).  In a tree this decides what a scan of the directory makes of
the child (`FileSystem.scan_listing`).  Hidden names are passed over.  A name that is text and
stands for a file is pending; a directory is passed over, unless a link leads back to the scanned
directory itself; everything else is unusable.  So each child is in one of these classes, and is
listed at most once.

The size of a file is found by its path.  The path of a file that is no link may be too long to be
looked up although the file is there, and then its size is given as 0
(`FileSystem.scan_long_root`).

Unusable entries come in the order of their names as they stand in the directory
(`FileSystem.scan_unusable_order`).  A name that is not text is shown in another form, which may
belong to another place of the list (`FileSystem.scan_unusable_disorder`).
-/

import Rollup.Proofs.FileSystem.Scan
import Rollup.Proofs.FileSystem.Tree
import Rollup.Proofs.FileSystem.Writing

namespace Rollup

/-! ### Trees -/

namespace FileSystem

variable {fs : FileSystem} {n k : Nat} {d l : Location} {steps : List Bytes} {p : Path}

/-- The parent of a directory of a tree is a directory. -/
theorem IsTree.dropLast (h : fs.IsTree) (hd : fs.entryAt? d = some .directory) :
    fs.entryAt? d.dropLast = some .directory := by
  rcases List.eq_nil_or_concat d with rfl | ⟨init, name, rfl⟩
  · exact hd
  · rw [List.concat_eq_append] at hd ⊢
    rw [List.dropLast_concat]
    exact h.parents _ _ _ hd

/-- A walk begins at a directory if its path is written in one. -/
theorem entryAt?_ofPath (hd : fs.entryAt? d = some .directory) (p : Path) :
    fs.entryAt? (Walk.ofPath d p).directory = some .directory := by
  rw [Walk.ofPath]
  split
  · rfl
  · exact hd

/-- In a tree, a way ends at a directory. -/
theorem IsTree.entryAt?_of_way (h : fs.IsTree) (hway : Way fs n d steps k l)
    (hd : fs.entryAt? d = some .directory) : fs.entryAt? l = some .directory := by
  induction hway with
  | here => exact hd
  | dot _ ih => exact ih hd
  | up _ ih => exact ih (h.dropLast hd)
  | down _ entry _ ih => exact ih entry
  | link _ _ _ ih => exact ih (entryAt?_ofPath hd _)

/-- **In a tree, what a path leads to stands at its place.** -/
theorem IsTree.entryAt?_of_find (h : fs.IsTree) {entry : Entry} (hfind : fs.find p = .ok (l, entry)) :
    fs.entryAt? l = some entry := by
  by_cases hdir : entry = .directory
  · subst hdir
    obtain ⟨k, -, hway⟩ := find_eq_directory_iff.1 hfind
    exact h.entryAt?_of_way hway (entryAt?_ofPath h.workingDirectory p)
  · cases hcheck : checkPath p with
    | error fault =>
      rw [find_of_checkPath_error hcheck] at hfind
      cases hfind
    | ok u =>
      rw [find_of_checkPath hcheck] at hfind
      split at hfind
      · rename_i hwalk
        obtain ⟨rfl, rfl⟩ := Prod.mk.inj (Except.ok.inj hfind)
        exact entryAt?_of_walk hdir hwalk
      · cases hfind
      · cases hfind

end FileSystem

/-! ### What a child stands for -/

namespace Scan

open FileSystem

variable {fs : FileSystem} {root : Path} {l place place' : Location} {name : Bytes}
  {entry entry' : Entry} {file : PendingFile} {content : Bytes}

/-- A child stands for one thing at most. -/
theorem StandsFor.unique (h : StandsFor fs root l name place entry)
    (h' : StandsFor fs root l name place' entry') : place = place' ∧ entry = entry' := by
  cases h with
  | itself child no_link =>
    cases h' with
    | itself child' => exact ⟨rfl, Option.some.inj (child.symm.trans child')⟩
    | link child' => exact absurd (Option.some.inj (child.symm.trans child')) (no_link _)
  | link child leads =>
    cases h' with
    | itself child' no_link => exact absurd (Option.some.inj (child'.symm.trans child)) (no_link _)
    | link _ leads' => exact Prod.mk.inj (Except.ok.inj (leads.symm.trans leads'))

theorem StandsFor.mem_children (h : StandsFor fs root l name place entry) : name ∈ fs.children l := by
  rw [FileSystem.mem_children]
  cases h with
  | itself child | link child => simp [child]

/-- In a tree, what a child stands for is there. -/
theorem StandsFor.entryAt? (h : StandsFor fs root l name place entry) (htree : fs.IsTree) :
    fs.entryAt? place = some entry := by
  cases h with
  | itself child => exact child
  | link _ leads => exact htree.entryAt?_of_find leads

/-! ### Pending files -/

/-- The size given for a file: that of its content, if its path can be looked up. -/
def givenSize (path : Path) (content : Bytes) : Nat :=
  if path.length < pathLimit then content.length else 0

/-- A child is pending as `file`: its name is not hidden and is text, and it stands for a file. -/
structure IsPending (fs : FileSystem) (root : Path) (l : Location) (file : PendingFile) : Prop where
  visible : isHidden (Utf8.encode file.name) = false
  path : file.path = Path.join root (Utf8.encode file.name)
  stands : ∃ place content, StandsFor fs root l (Utf8.encode file.name) place (.file content) ∧
    file.size = givenSize file.path content

/-- A path that is too long cannot be read. -/
theorem sizeOf_of_long {path : Path} (hlong : ¬path.length < pathLimit) : sizeOf fs path = 0 := by
  cases hcheck : checkPath path with
  | ok u => exact absurd (checkPath_eq_ok_iff.1 hcheck).2.2 hlong
  | error fault =>
    simp only [sizeOf, FileSystem.read, find_of_checkPath_error hcheck]
    rfl

/-- **The size of a file** is that of its content, unless its path is too long. -/
theorem sizeOf_eq (h : StandsFor fs root l name place (.file content)) {k : Nat}
    (hroot : Reaches fs root k l) (hname : IsEntryName name) :
    sizeOf fs (Path.join root name) = givenSize (Path.join root name) content := by
  have hfound : ∀ place, fs.find (Path.join root name) = .ok (place, .file content) →
      sizeOf fs (Path.join root name) = content.length := fun place hfind => by
    simp only [sizeOf, FileSystem.read, hfind]
    rfl
  unfold givenSize
  by_cases hlong : (Path.join root name).length < pathLimit
  · rw [if_pos hlong]
    cases h with
    | itself child =>
      have hcheck := hroot.checkPath_join hname hlong
      exact hfound _ (hroot.find_join_of_leaf hname hcheck child Entry.noConfusion
        fun _ => Entry.noConfusion)
    | link _ leads => exact hfound _ leads
  · rw [if_neg hlong, sizeOf_of_long hlong]

/-- **What a scan finds pending** is a visible child that stands for a file. -/
theorem exists_pending_iff (htree : fs.IsTree) (hroot : fs.find root = .ok (l, .directory)) :
    (∃ name ∈ fs.children l, inspect fs root l name = .pending file) ↔ IsPending fs root l file := by
  obtain ⟨k, hreaches⟩ := find_eq_directory_iff.1 hroot
  constructor
  · rintro ⟨name, hchild, hinspect⟩
    obtain ⟨hvisible, text, htext, ⟨content, htarget⟩, rfl⟩ := inspect_eq_pending_iff.1 hinspect
    obtain rfl := Utf8.encode_of_decode? htext
    obtain ⟨place, -, hstands⟩ := target_eq_file_iff.1 htarget
    exact ⟨hvisible, rfl, place, content, hstands,
      sizeOf_eq hstands hreaches (htree.names.isEntryName (mem_children.1 hchild))⟩
  · rintro ⟨hvisible, hpath, place, content, hstands, hsize⟩
    have hchild := hstands.mem_children
    have hplace : place ≠ l := fun e => by
      have hfile := hstands.entryAt? htree
      rw [e, htree.entryAt?_of_find hroot] at hfile
      cases hfile
    refine ⟨_, hchild, inspect_eq_pending_iff.2 ⟨hvisible, _, Utf8.decode?_encode _,
      ⟨content, target_eq_file_iff.2 ⟨place, hplace, hstands⟩⟩, ?_⟩⟩
    rw [sizeOf_eq hstands hreaches (htree.names.isEntryName (mem_children.1 hchild)), ← hpath, ← hsize]

/-! ### Unusable entries -/

/-- A child is unusable: its name is not hidden, and it neither stands for a directory nor is a
file whose name is text; or it is a link back to the scanned directory. -/
structure IsUnusable (fs : FileSystem) (root : Path) (l : Location) (name : Bytes) : Prop where
  child : name ∈ fs.children l
  visible : isHidden name = false
  unfit : StandsFor fs root l name l .directory ∨
    (∀ place, ¬StandsFor fs root l name place .directory) ∧
    ∀ text place content, Utf8.encode text = name → ¬StandsFor fs root l name place (.file content)

/-- **What a scan finds unusable.** -/
theorem isUnusable_iff (htree : fs.IsTree) (hroot : fs.find root = .ok (l, .directory)) :
    name ∈ fs.children l ∧ (inspect fs root l name).unusable?.isSome = true ↔
      IsUnusable fs root l name := by
  rw [Finding.isSome_unusable?_iff, isSome_listed?_iff]
  constructor
  · rintro ⟨hchild, ⟨hvisible, hdir⟩, hpending⟩
    rw [standsForDirectory_iff] at hdir
    refine ⟨hchild, hvisible, ?_⟩
    by_cases hback : StandsFor fs root l name l .directory
    · exact Or.inl hback
    · refine Or.inr ⟨fun place hstands => hdir ⟨place, ?_, hstands⟩, ?_⟩
      · rintro rfl
        exact hback hstands
      · rintro text place content rfl hstands
        have hlisted : IsPending fs root l ⟨text, Path.join root (Utf8.encode text),
          givenSize (Path.join root (Utf8.encode text)) content⟩ :=
            ⟨hvisible, rfl, place, content, hstands, rfl⟩
        obtain ⟨name, -, hname⟩ := (exists_pending_iff htree hroot).2 hlisted
        obtain ⟨rfl, -⟩ := name_of_pending hname
        exact hpending _ hname
  · rintro ⟨hchild, hvisible, hunfit⟩
    refine ⟨hchild, ⟨hvisible, ?_⟩, fun file hfile => ?_⟩
    · rw [standsForDirectory_iff]
      rintro ⟨place, hplace, hstands⟩
      rcases hunfit with hback | ⟨hdir, -⟩
      · exact hplace (hstands.unique hback).1
      · exact hdir place hstands
    · obtain ⟨rfl, -⟩ := name_of_pending hfile
      obtain ⟨-, -, place, content, hstands, -⟩ :=
        (exists_pending_iff htree hroot).1 ⟨_, hchild, hfile⟩
      rcases hunfit with hback | ⟨-, hfileless⟩
      · cases (hstands.unique hback).2
      · exact hfileless _ place content rfl hstands

/-- What a scan of the directory `l` lists, which was reached by the path `root`. -/
structure Listing (fs : FileSystem) (root : Path) (l : Location) (scan : ScanResult) : Prop where
  ascending : scan.files.Pairwise fun f f' => Utf8.compareText f.name f'.name = .lt
  files : ∀ file, file ∈ scan.files ↔ IsPending fs root l file
  /-- The names are distinct, as children are; shown they need not be. -/
  unusable : ∃ names : List Bytes, (names.Pairwise fun x y => compare x y = .lt) ∧
    (∀ name, name ∈ names ↔ IsUnusable fs root l name) ∧
    scan.unusable.map Unusable.name = names.map Utf8.display

end Scan

namespace FileSystem

/-- **A scan loses and invents nothing.**  In every tree and for every path that leads to a
directory of it, the files listed are the visible children that are files and have a text as
their name, in the order of names, and the unusable entries are the other visible children that
do not stand for another directory. -/
theorem scan_listing {fs : FileSystem} {root : Path} {l : Location} (htree : fs.IsTree)
    (hroot : fs.find root = .ok (l, .directory)) :
    ∃ scan, fs.scan? root = some scan ∧ Scan.Listing fs root l scan := by
  refine ⟨_, scan?_of_find hroot, ?_⟩
  exact {
    ascending := by
      have hnames := (ordered_children fs l).sublist
        (Scan.sublist_pendingNames fs root l (fs.children l))
      exact List.pairwise_map.1 (List.pairwise_map.1 hnames)
    files := fun file => by
      rw [← Scan.exists_pending_iff htree hroot, List.mem_filterMap]
      simp only [Scan.findingsOf, List.mem_map, Scan.pending?_eq_some_iff, exists_eq_right]
    unusable := ⟨_, (ordered_children fs l).filter _, fun name => by
      rw [List.mem_filter, Scan.isUnusable_iff htree hroot], Scan.map_name_unusable _⟩ }

/-- A file with a link to it, a link that dangles, one back to the directory and one to another
directory, a socket, a hidden file and a file whose name is no text. -/
theorem scan_listing_links :
    let inside (name : Bytes) : Location := [Utf8.encode "in", name]
    let link (target : String) : Entry := .link (Utf8.encode target)
    let fs := (((((((((FileSystem.mk ∅ []).insert [Utf8.encode "in"] .directory).insert
      (inside (Utf8.encode "web_1")) (.file (Utf8.encode "1\n0.5\n\n"))).insert
      (inside (Utf8.encode "web_2")) (link "web_1")).insert
      (inside (Utf8.encode "web_3")) (link "web_9")).insert
      (inside (Utf8.encode "back")) (link ".")).insert
      (inside (Utf8.encode "up")) (link "..")).insert
      (inside (Utf8.encode "app_1")) .socket).insert
      (inside (Utf8.encode ".web_4")) (.file [])).insert (inside [0xFF]) (.file [])
    fs.IsTree ∧ fs.find (Path.ofString "in") = .ok ([Utf8.encode "in"], .directory) ∧
    ∃ scan, fs.scan? (Path.ofString "in") = some scan ∧
      Scan.Listing fs (Path.ofString "in") [Utf8.encode "in"] scan := by
  intro inside link fs
  have htree : fs.IsTree := isTree_of_keys (by decide +kernel) (by decide +kernel) rfl
  have hroot : fs.find (Path.ofString "in") = .ok ([Utf8.encode "in"], .directory) := by
    decide +kernel
  exact ⟨htree, hroot, scan_listing htree hroot⟩

/-- **The size is not always that of the content.**  A path may be short enough for a directory
and too long for a file in it: the file is listed, with a content of ten bytes and the size 0. -/
theorem scan_long_root :
    let name := String.ofList (List.replicate 200 'a' ++ ['_', '1'])
    let content := Utf8.encode "1\n0.5\n0.1\n"
    let l : Location := [Utf8.encode "in"]
    let fs := ((FileSystem.mk ∅ []).insert l .directory).insert (l ++ [Utf8.encode name])
      (.file content)
    let root := Path.ofString "in" ++ List.replicate 3895 Path.slash
    fs.IsTree ∧ fs.find root = .ok (l, .directory) ∧
    fs.entryAt? (l ++ [Utf8.encode name]) = some (.file content) ∧ content.length = 10 ∧
    fs.scan? root = some ⟨[⟨name, Path.join root (Utf8.encode name), 0⟩], []⟩ := by
  intro name content l fs root
  have htree : fs.IsTree := isTree_of_keys (by decide +kernel) (by decide +kernel) rfl
  have hroot : fs.find root = .ok (l, .directory) := by decide +kernel
  have hentry : fs.entryAt? (l ++ [Utf8.encode name]) = some (.file content) := by decide +kernel
  have hchildren : fs.children l = [Utf8.encode name] := by decide +kernel
  have hvisible : Scan.isHidden (Utf8.encode name) = false := by decide +kernel
  have habsolute : Path.isAbsolute (Utf8.encode name) = false := by decide +kernel
  have hlong : 4096 ≤ root.length + (Utf8.encode name).length := by decide +kernel
  have hsize : Scan.sizeOf fs (Path.join root (Utf8.encode name)) = 0 :=
    Scan.sizeOf_of_long (Nat.not_lt.2 (hlong.trans (Path.le_length_join root habsolute)))
  refine ⟨htree, hroot, hentry, by decide +kernel, ?_⟩
  rw [scan?_of_find hroot, hchildren, Scan.findingsOf, List.map_singleton,
    Scan.inspect_of_file hvisible hentry, hsize]
  rfl

end FileSystem

/-! ### The order of unusable entries -/

namespace Utf8

/-- The byte string is the UTF-8 form of a text. -/
def IsText (b : Bytes) : Prop := ∃ text, encode text = b

/-- What is text is shown as it is, and in its order. -/
theorem compareText_display {x y : Bytes} (hx : IsText x) (hy : IsText y) :
    compareText (display x) (display y) = compare x y := by
  obtain ⟨s, rfl⟩ := hx
  obtain ⟨t, rfl⟩ := hy
  rw [display_encode, display_encode, compareText]

end Utf8

namespace Scan

/-- The names of the unusable children of a directory, as they stand there. -/
def unusableNames (fs : FileSystem) (root : Path) (l : Location) : List Bytes :=
  (fs.children l).filter fun name => (inspect fs root l name).unusable?.isSome

end Scan

namespace FileSystem

/-- **Unusable entries come in the order of their names as they stand in the directory.**  Under
the names as shown, two entries are in order if both names are text; so all of them are if no
name is broken. -/
theorem scan_unusable_order {fs : FileSystem} {root : Path} {l : Location}
    (hroot : fs.find root = .ok (l, .directory)) :
    ∃ scan, fs.scan? root = some scan ∧
      scan.unusable.map Unusable.name = (Scan.unusableNames fs root l).map Utf8.display ∧
      ((Scan.unusableNames fs root l).Pairwise fun x y => compare x y = .lt ∧
        (Utf8.IsText x → Utf8.IsText y →
          Utf8.compareText (Utf8.display x) (Utf8.display y) = .lt)) ∧
      ((∀ name ∈ Scan.unusableNames fs root l, Utf8.IsText name) →
        scan.unusable.Pairwise fun e f => Utf8.compareText e.name f.name = .lt) := by
  have hnames : ((Scan.findingsOf fs root l (fs.children l)).filterMap Scan.Finding.unusable?).map
      Unusable.name = (Scan.unusableNames fs root l).map Utf8.display := Scan.map_name_unusable _
  have hordered : (Scan.unusableNames fs root l).Pairwise fun x y => compare x y = .lt :=
    (ordered_children fs l).filter _
  have hshown : ∀ x y, compare x y = .lt → Utf8.IsText x → Utf8.IsText y →
      Utf8.compareText (Utf8.display x) (Utf8.display y) = .lt := fun x y h hx hy => by
    rw [Utf8.compareText_display hx hy, h]
  refine ⟨_, scan?_of_find hroot, hnames, hordered.imp fun h => ⟨h, hshown _ _ h⟩, fun htext => ?_⟩
  have hall : ((Scan.unusableNames fs root l).map Utf8.display).Pairwise
      fun s t => Utf8.compareText s t = .lt :=
    List.pairwise_map.2 (hordered.imp_of_mem fun hx hy h => hshown _ _ h (htext _ hx) (htext _ hy))
  rw [← hnames] at hall
  exact List.pairwise_map.1 hall

/-- A socket and a link that dangles. -/
theorem scan_unusable_order_sockets :
    let inside (name : String) : Location := [Utf8.encode "in", Utf8.encode name]
    let fs := (((FileSystem.mk ∅ []).insert [Utf8.encode "in"] .directory).insert
      (inside "web_1") .socket).insert (inside "app_1") (.link (Utf8.encode "gone"))
    let root := Path.ofString "in"
    let l : Location := [Utf8.encode "in"]
    fs.find root = .ok (l, .directory) ∧ ∃ scan, fs.scan? root = some scan ∧
      scan.unusable.map Unusable.name = (Scan.unusableNames fs root l).map Utf8.display ∧
      ((Scan.unusableNames fs root l).Pairwise fun x y => compare x y = .lt ∧
        (Utf8.IsText x → Utf8.IsText y →
          Utf8.compareText (Utf8.display x) (Utf8.display y) = .lt)) ∧
      ((∀ name ∈ Scan.unusableNames fs root l, Utf8.IsText name) →
        scan.unusable.Pairwise fun e f => Utf8.compareText e.name f.name = .lt) := by
  intro inside fs root l
  have hroot : fs.find root = .ok (l, .directory) := by decide +kernel
  exact ⟨hroot, scan_unusable_order hroot⟩

/-- **A broken name may be shown out of order.**  The byte `0x80` comes before the first byte of
`é`, but the sign it is shown as comes behind `é`. -/
theorem scan_unusable_disorder :
    let l : Location := [Utf8.encode "in"]
    let fs := (((FileSystem.mk ∅ []).insert l .directory).insert (l ++ [[0x80]])
      (.file (Utf8.encode "1\n0.5\n0.1\n"))).insert (l ++ [Utf8.encode "é"]) .socket
    let root := Path.ofString "in"
    fs.IsTree ∧ fs.find root = .ok (l, .directory) ∧ ∃ scan, fs.scan? root = some scan ∧
      scan = ⟨[], [⟨"\uFFFD", "file name is not valid UTF-8"⟩, ⟨"é", "not a regular file"⟩]⟩ ∧
      ¬scan.unusable.Pairwise fun e f => (Utf8.compareText e.name f.name).isLE = true := by
  intro l fs root
  have htree : fs.IsTree := isTree_of_keys (by decide +kernel) (by decide +kernel) rfl
  have hroot : fs.find root = .ok (l, .directory) := by decide +kernel
  have hscan : fs.scan? root =
      some ⟨[], [⟨"\uFFFD", "file name is not valid UTF-8"⟩, ⟨"é", "not a regular file"⟩]⟩ := by
    decide +kernel
  exact ⟨htree, hroot, _, hscan, rfl, by decide +kernel⟩

end FileSystem
end Rollup
