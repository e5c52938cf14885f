/-
# The operations of a storage in two directories

What each operation of a storage in two directories does, in terms of the entries of the
tree.  The paths of the storage lead to two directories (`DirectoryStore.StandsAt`), and
the names of files and groups are looked up there.  A record can be read only where no
way leads through, so reading tells that the entry may be replaced or removed
(`DirectoryStore.noWayThrough_of_readRecord`).  Saving replaces one entry or leaves all as
they were (`DirectoryStore.saveAggregate_cases`), and a file that could be read is removed
(`DirectoryStore.consume_of_entry`).  If all ways are kept, the paths lead where they led
(`DirectoryStore.StaysPut`).
-/

import Rollup.Proofs.FileSystem.Replacement
import Rollup.Proofs.FileSystem.Scan
import Rollup.Proofs.GroupName

namespace Rollup

/-! ### Names of groups -/

namespace GroupName

variable {file : String} {g : GroupName}

/-- The name of a group starts the names of its files. -/
theorem exists_of_ofFile (h : ofFile file = .ok g) :
    ∃ rest, Utf8.encode file = Utf8.encode g.text ++ rest := by
  have hderives : Derives file (.ok g.text) := map_text_ofFile_eq_iff.1 (by rw [h]; rfl)
  cases hderives with
  | @group text suffix divided =>
    exact ⟨Utf8.encode ("_" ++ suffix), by rw [divided, String.append_assoc, Utf8.encode_append]⟩

/-- A file and the aggregate of its group have different names. -/
theorem ofString_ne_of_ofFile (h : ofFile file = .ok g) :
    Path.ofString file ≠ Path.ofString g.text := by
  have hderives : Derives file (.ok g.text) := map_text_ofFile_eq_iff.1 (by rw [h]; rfl)
  cases hderives with
  | @group text suffix divided =>
    intro hname
    have hlength := congrArg String.length (Utf8.encode_injective hname)
    rw [divided, String.length_append, String.length_append] at hlength
    have hmark : "_".length = 1 := rfl
    omega

/-- **The group of a file can be the name of an entry** if the file is. -/
theorem isEntryName_of_ofFile (h : ofFile file = .ok g) (hfile : IsEntryName (Path.ofString file)) :
    IsEntryName (Path.ofString g.text) := by
  obtain ⟨rest, hrest⟩ := exists_of_ofFile h
  have hmem : ∀ b ∈ Utf8.encode g.text, b ∈ Utf8.encode file := fun b hb => by
    rw [hrest]
    exact List.mem_append_left _ hb
  have hlength : (Utf8.encode g.text).length ≤ (Utf8.encode file).length := by
    rw [hrest, List.length_append]
    exact Nat.le_add_right _ _
  have hplain := g.isPlain
  exact ⟨⟨hplain.ne_dot, hplain.ne_dotDot, hlength.trans hfile.fits⟩, hplain.ne_nil,
    hplain.no_slash, fun hb => hfile.no_nul (hmem _ hb)⟩

theorem isHidden_of_ofFile (h : ofFile file = .ok g) :
    Scan.isHidden (Utf8.encode g.text) = Scan.isHidden (Utf8.encode file) := by
  obtain ⟨rest, hrest⟩ := exists_of_ofFile h
  have hne : Utf8.encode g.text ≠ [] := g.isPlain.ne_nil
  rw [hrest, Scan.isHidden, Scan.isHidden, List.head?_append, List.head?_eq_some_head hne]
  rfl

end GroupName

namespace DirectoryStore

open FileSystem

variable {s t u : DirectoryStore} {files : FileSystem} {P A l : Location} {k : Nat}
  {directory path : Path} {name content : Bytes} {r : Record} {g : GroupName} {file : String}

/-- The paths of the storage lead to two directories. -/
structure StandsAt (s : DirectoryStore) (P A : Location) : Prop where
  published : ∃ k, s.files.Reaches s.published k P
  aggregate : ∃ k, s.files.Reaches s.aggregate k A
  apart : P ≠ A

/-- Entries of different directories are different. -/
theorem concat_ne (h : P ≠ A) (x y : Bytes) : P ++ [x] ≠ A ++ [y] := fun e =>
  h (List.append_inj' e rfl).1

theorem last_eq_of_concat_eq {x y : Bytes} (h : P ++ [x] = A ++ [y]) : x = y :=
  List.singleton_inj.1 (List.append_inj' h rfl).2

/-! ### Listing -/

theorem standsAt_of_find (hpublished : s.files.find s.published = .ok (P, .directory))
    (haggregate : s.files.find s.aggregate = .ok (A, .directory)) (h : P ≠ A) : s.StandsAt P A :=
  ⟨find_eq_directory_iff.1 hpublished, find_eq_directory_iff.1 haggregate, h⟩

/-- The storage can be used exactly if both directories exist. -/
theorem ensureReady_eq_ok_iff : Storage.ensureReady s = .ok () ↔
    s.files.isDirectory s.published = true ∧ s.files.isDirectory s.aggregate = true := by
  show s.ensureReady = _ ↔ _
  unfold DirectoryStore.ensureReady
  cases s.files.isDirectory s.published <;> cases s.files.isDirectory s.aggregate <;> simp

theorem exists_listing (h : s.files.isDirectory s.published = true) :
    ∃ listing, Storage.listPending s = .ok listing := by
  show ∃ listing, s.listPending = .ok listing
  obtain ⟨k, l, hreach⟩ := isDirectory_iff.1 h
  have hfind := find_eq_directory_iff.2 ⟨k, hreach⟩
  simp only [DirectoryStore.listPending, scan?, findings?, hfind, Option.map_some]
  exact ⟨_, rfl⟩

theorem StandsAt.ensureReady (h : s.StandsAt P A) : Storage.ensureReady s = .ok () :=
  ensureReady_eq_ok_iff.2 ⟨isDirectory_iff.2 (h.published.imp fun _ hp => ⟨P, hp⟩),
    isDirectory_iff.2 (h.aggregate.imp fun _ ha => ⟨A, ha⟩)⟩

theorem listPending_of_reaches (hpublished : ∃ k, s.files.Reaches s.published k P) :
    Storage.listPending s = .ok {
      pending := Scan.pendingNames (Scan.findingsOf s.files s.published P (s.files.children P))
      unusable := (Scan.findingsOf s.files s.published P (s.files.children P)).filterMap
        Scan.Finding.unusable? } := by
  show s.listPending = _
  rw [DirectoryStore.listPending, scan?_of_find (find_eq_directory_iff.2 hpublished)]
  rfl

/-- What is listed as pending is an entry of the directory. -/
theorem isEntryName_of_pending (hnames : ∀ name, files.entryAt? (P ++ [name]) ≠ none → IsEntryName name)
    (h : file ∈ Scan.pendingNames (Scan.findingsOf files directory P (files.children P))) :
    IsEntryName (Path.ofString file) :=
  hnames _ (mem_children.1 (Scan.exists_pending_of_mem h).1)

/-! ### Reading -/

theorem readRecord_eq_ok_iff :
    readRecord files path = .ok r ↔
      ∃ content, files.read path = .ok content ∧ RowFormat.parseBytes content = .ok r := by
  unfold readRecord
  cases hread : files.read path with
  | ok content => cases hparse : RowFormat.parseBytes content <;> simp [hparse, Except.mapError]
  | error fault => split <;> simp_all

/-- A record is missing only where nothing is found. -/
theorem read_of_notFound {p : Path} (h : readRecord files path = .error (.notFound p)) :
    files.read path = .error (.system .noEntry) := by
  unfold readRecord at h
  split at h
  · rename_i content _
    cases hparse : RowFormat.parseBytes content <;> simp [hparse, Except.mapError] at h
  · assumption
  · cases h

/-- What is read or missing is neither a directory nor lost in links. -/
theorem find_of_read (h : (∃ content, files.read path = .ok content) ∨
    files.read path = .error (.system .noEntry)) :
    (∀ l, files.find path ≠ .ok (l, .directory)) ∧
      files.find path ≠ .error (.system .tooManyLinks) := by
  constructor
  · intro l hfind
    simp only [FileSystem.read, hfind, bind, Except.bind] at h
    rcases h with ⟨content, h⟩ | h <;> cases h
  · intro hfind
    simp only [FileSystem.read, hfind, bind, Except.bind] at h
    rcases h with ⟨content, h⟩ | h <;> cases h

theorem checkPath_of_read (hpath : path ≠ []) (h : (∃ content, files.read path = .ok content) ∨
    files.read path = .error (.system .noEntry)) : checkPath path = .ok () := by
  cases hcheck : checkPath path with
  | ok u => rfl
  | error fault =>
    simp only [FileSystem.read, find_of_checkPath_error hcheck, bind, Except.bind] at h
    rcases h with ⟨content, h⟩ | h
    · cases h
    · obtain rfl := Except.error.inj h
      rcases checkPath_eq_error hcheck hpath with h | h <;> cases h

/-- **Where a record is read or missing, no way leads through.** -/
theorem noWayThrough_of_readRecord (hreach : files.Reaches directory k l) (hname : IsEntryName name)
    (h : (∃ r, readRecord files (Path.join directory name) = .ok r) ∨
      ∃ p, readRecord files (Path.join directory name) = .error (.notFound p)) :
    checkPath (Path.join directory name) = .ok () ∧ NoWayThrough files (l ++ [name]) := by
  have hread : (∃ content, files.read (Path.join directory name) = .ok content) ∨
      files.read (Path.join directory name) = .error (.system .noEntry) := by
    rcases h with ⟨r, h⟩ | ⟨p, h⟩
    · obtain ⟨content, hcontent, -⟩ := readRecord_eq_ok_iff.1 h
      exact Or.inl ⟨content, hcontent⟩
    · exact Or.inr (read_of_notFound h)
  have hcheck := checkPath_of_read (Path.join_ne_nil hreach.ne_nil hname) hread
  obtain ⟨hdir, hlinks⟩ := find_of_read hread
  exact ⟨hcheck, hreach.noWayThrough hname hcheck hdir hlinks⟩

/-- Where a record is read, there is an entry. -/
theorem exists_entry_of_readRecord (hreach : files.Reaches directory k l) (hname : IsEntryName name)
    (h : readRecord files (Path.join directory name) = .ok r) :
    ∃ entry, files.entryAt? (l ++ [name]) = some entry ∧ entry ≠ .directory := by
  obtain ⟨hcheck, hno⟩ := noWayThrough_of_readRecord hreach hname (Or.inl ⟨r, h⟩)
  cases he : files.entryAt? (l ++ [name]) with
  | some entry => exact ⟨entry, rfl, fun e => hno.not_directory (by rw [he, e])⟩
  | none =>
    obtain ⟨content, hread, -⟩ := readRecord_eq_ok_iff.1 h
    simp only [FileSystem.read, hreach.find_join_of_vacant hname hcheck he, bind, Except.bind] at hread
    cases hread

/-- A file in a directory that is reached is read. -/
theorem readRecord_of_file (hreach : files.Reaches directory k l) (hname : IsEntryName name)
    (hcheck : checkPath (Path.join directory name) = .ok ())
    (he : files.entryAt? (l ++ [name]) = some (.file content)) :
    readRecord files (Path.join directory name) =
      (RowFormat.parseBytes content).mapError (.malformed (Path.join directory name)) := by
  have hfind := hreach.find_join_of_leaf hname hcheck he Entry.noConfusion fun _ => Entry.noConfusion
  have hread : files.read (Path.join directory name) = .ok content := by
    simp only [FileSystem.read, hfind, bind, Except.bind]
    rfl
  rw [readRecord, hread]

/-- A name that a directory does not hold is missing. -/
theorem readRecord_of_vacant (hreach : files.Reaches directory k l) (hname : IsEntryName name)
    (hcheck : checkPath (Path.join directory name) = .ok ())
    (he : files.entryAt? (l ++ [name]) = none) :
    readRecord files (Path.join directory name) = .error (.notFound (Path.join directory name)) := by
  have hread : files.read (Path.join directory name) = .error (.system .noEntry) := by
    simp only [FileSystem.read, hreach.find_join_of_vacant hname hcheck he, bind, Except.bind]
  rw [readRecord, hread]

theorem loadAggregate_cases {o : Option Record} (h : s.loadAggregate g = .ok o) :
    (∃ r, readRecord s.files (s.aggregatePath g) = .ok r) ∨
      ∃ p, readRecord s.files (s.aggregatePath g) = .error (.notFound p) := by
  unfold loadAggregate at h
  split at h
  · exact Or.inl ⟨_, ‹_›⟩
  · exact Or.inr ⟨_, ‹_›⟩
  · cases h

/-! ### Saving and removing -/

/-- **Replacing a file** replaces one entry or leaves all as they were. -/
theorem replace_cases (files : FileSystem) (path : Path) (content : Bytes) :
    (∃ e files', replace files path content = (.error e, files') ∧ Unchanged files files') ∨
    ∃ files' d name, replace files path content = (.ok (), files') ∧
      files.NamesEntry path d name ∧
      Changed files files' (d ++ [name]) (some (.file content)) := by
  unfold replace
  cases hstart : Replacement.start files path with
  | error e => exact Or.inl ⟨_, files, rfl, rfl, fun _ => rfl⟩
  | ok started =>
    obtain ⟨started, replacement⟩ := started
    have hunderWay := (Replacement.isUnderWay_of_start hstart).write content
    rcases hunderWay.finish_cases with ⟨fault, files', hfinish, hsame⟩ |
      ⟨files', d, name, hfinish, hnames, -, hchanged⟩
    · exact Or.inl ⟨.io path fault, files', by simp only [hfinish]; rfl, hsame⟩
    · exact Or.inr ⟨files', d, name, by simp only [hfinish]; rfl, hnames, hchanged⟩

/-- A replacement that can be started, where there is no directory, succeeds. -/
theorem replace_of_start {started : FileSystem × Replacement} {d : Location}
    (hstart : Replacement.start files path = .ok started)
    (hnames : files.NamesEntry path d name)
    (hdir : files.entryAt? (d ++ [name]) ≠ some .directory) (content : Bytes) :
    ∃ files', replace files path content = (.ok (), files') ∧
      Changed files files' (d ++ [name]) (some (.file content)) := by
  obtain ⟨started, replacement⟩ := started
  obtain ⟨files', hfinish, hchanged⟩ :=
    ((Replacement.isUnderWay_of_start hstart).write content).finish_of_destination
      (Replacement.destination_eq_ok_iff.2 ⟨d, name, hnames, hdir, rfl⟩)
  exact ⟨files', by simp only [replace, hstart, hfinish]; rfl, hchanged⟩

/-- **Saving an aggregate** replaces the entry of the group or leaves all as they were. -/
theorem saveAggregate_cases (haggregate : ∃ k, s.files.Reaches s.aggregate k A)
    (hname : IsEntryName (Path.ofString g.text)) (r : Record) :
    (∃ e files, Storage.saveAggregate s g r = (.error e, { s with files }) ∧
      Unchanged s.files files) ∨
    ∃ files, Storage.saveAggregate s g r = (.ok (), { s with files }) ∧
      Changed s.files files (A ++ [Path.ofString g.text])
        (some (.file (Utf8.encode (RowFormat.render r)))) := by
  have hsave : Storage.saveAggregate s g r = s.saveAggregate g r := rfl
  rw [hsave, saveAggregate]
  rcases replace_cases s.files (s.aggregatePath g) (Utf8.encode (RowFormat.render r)) with
    ⟨e, files, hreplace, hsame⟩ | ⟨files, d, name, hreplace, hnames, hchanged⟩
  · exact Or.inl ⟨e, files, by rw [hreplace], hsame⟩
  · obtain ⟨k, hreach⟩ := haggregate
    obtain ⟨rfl, rfl⟩ := hnames.unique (hreach.namesEntry_join hname hnames.check)
    exact Or.inr ⟨files, by rw [hreplace], hchanged⟩

/-- **Removing a published file** erases its entry. -/
theorem consume_of_entry {entry : Entry} (hpublished : ∃ k, s.files.Reaches s.published k P)
    (hname : IsEntryName (Path.ofString file)) (hcheck : checkPath (s.publishedPath file) = .ok ())
    (he : s.files.entryAt? (P ++ [Path.ofString file]) = some entry) (hdir : entry ≠ .directory) :
    Storage.consume s file =
      (.ok (), { s with files := s.files.erase (P ++ [Path.ofString file]) }) := by
  obtain ⟨k, hreach⟩ := hpublished
  have hremove := remove_of_entry (hreach.namesEntry_join hname hcheck) he hdir
  have hconsume : Storage.consume s file = s.consume file := rfl
  simp only [hconsume, consume, publishedPath, hremove]

/-! ### Storages that stay where they are -/

/-- All paths lead to the directories that they led to, those of the storage included. -/
structure StaysPut (s t : DirectoryStore) : Prop where
  published : t.published = s.published
  aggregate : t.aggregate = s.aggregate
  workingDirectory : t.files.workingDirectory = s.files.workingDirectory
  ways : SameWays s.files t.files

namespace StaysPut

theorem refl (s : DirectoryStore) : StaysPut s s := ⟨rfl, rfl, rfl, .refl _⟩

theorem of_sameWays (hsame : SameWays s.files files)
    (hworking : files.workingDirectory = s.files.workingDirectory) : StaysPut s { s with files } :=
  ⟨rfl, rfl, hworking, hsame⟩

theorem trans (h : StaysPut s t) (h' : StaysPut t u) : StaysPut s u :=
  ⟨h'.published.trans h.published, h'.aggregate.trans h.aggregate,
    h'.workingDirectory.trans h.workingDirectory, h.ways.trans h'.ways⟩

theorem reaches (h : StaysPut s t) (hreach : ∃ k, s.files.Reaches path k l) :
    ∃ k, t.files.Reaches path k l :=
  hreach.imp fun _ hp => hp.of_sameWays h.ways h.workingDirectory

/-- **A path leads to a directory exactly if it did.** -/
theorem isDirectory_iff (h : StaysPut s t) (path : Path) :
    t.files.isDirectory path = true ↔ s.files.isDirectory path = true := by
  rw [FileSystem.isDirectory_iff, FileSystem.isDirectory_iff]
  exact ⟨fun ⟨k, l, hp⟩ => ⟨k, l, hp.of_sameWays h.ways.symm h.workingDirectory.symm⟩,
    fun ⟨k, l, hp⟩ => ⟨k, l, hp.of_sameWays h.ways h.workingDirectory⟩⟩

/-- The storage stands where it stood. -/
theorem standsAt (h : StaysPut s t) (hstands : s.StandsAt P A) : t.StandsAt P A :=
  ⟨h.published ▸ h.reaches hstands.published, h.aggregate ▸ h.reaches hstands.aggregate, hstands.apart⟩

end StaysPut

end DirectoryStore
end Rollup
