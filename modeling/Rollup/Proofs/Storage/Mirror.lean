/-
# Two directories and the storage in memory that mirrors them

A storage in memory mirrors two directories if their entries are files with exactly its
texts (`DirectoryStore.Mirrors`).  Each of the two directories then holds the texts of one
map (`DirectoryStore.Holds`), and a change in one does not matter to the other.

Over a mirror the two storages list the same names, read and load the same records and
refuse the same texts, up to the directory that stands before a name in an error; and saving
or removing on both sides keeps the mirror, as long as no path is too long
(`DirectoryStore.Fits`).
-/

import Rollup.Proofs.Storage.Directory
import Rollup.Proofs.Storage.Memory

namespace Rollup
namespace DirectoryStore

open FileSystem

/-- The directories `P` and `A` hold files with exactly the texts of a storage in memory. -/
structure Mirrors (fs : FileSystem) (P A : Location) (m : MemoryStore) : Prop where
  published : ∀ file, fs.entryAt? (P ++ [Path.ofString file]) =
    m.published[file]?.map fun text => .file (Utf8.encode text)
  aggregates : ∀ g : GroupName, fs.entryAt? (A ++ [Path.ofString g.text]) =
    m.aggregates[g]?.map fun text => .file (Utf8.encode text)
  publishedNames : ∀ name, fs.entryAt? (P ++ [name]) ≠ none → ∃ file, name = Path.ofString file
  groupNames : ∀ name, fs.entryAt? (A ++ [name]) ≠ none →
    ∃ g : GroupName, name = Path.ofString g.text

/-- No path is too long that is used for the given files, their groups, and a temporary
file. -/
structure Fits (s : DirectoryStore) (files : List String) : Prop where
  published : ∀ file ∈ files, (s.publishedPath file).length < pathLimit
  aggregate : ∀ file ∈ files, ∀ g, GroupName.ofFile file = .ok g →
    (s.aggregatePath g).length < pathLimit
  temporary : (Path.join (Path.join (absolutePath s.files.workingDirectory) s.aggregate)
    (Replacement.temporaryName 0)).length < pathLimit

/-- Nothing changes outside two directories. -/
structure Confined (P A : Location) (fs fs' : FileSystem) : Prop where
  workingDirectory : fs'.workingDirectory = fs.workingDirectory
  kept : ∀ l, (∀ name, l ≠ P ++ [name] ∧ l ≠ A ++ [name]) → fs'.entryAt? l = fs.entryAt? l

variable {P A : Location} {fs fs' fs'' : FileSystem} {m : MemoryStore} {s : DirectoryStore}
  {file text : String} {g : GroupName} {r : Record}

theorem Confined.refl (P A : Location) (fs : FileSystem) : Confined P A fs fs := ⟨rfl, fun _ _ => rfl⟩

theorem Confined.trans (h : Confined P A fs fs') (h' : Confined P A fs' fs'') :
    Confined P A fs fs'' :=
  ⟨h'.workingDirectory.trans h.workingDirectory, fun l hl => (h'.kept l hl).trans (h.kept l hl)⟩

/-! ### One directory -/

/-- A directory holds files with exactly the given texts, under the names of their keys. -/
structure Holds {κ : Type} (fs : FileSystem) (D : Location) (name : κ → Bytes)
    (text? : κ → Option String) : Prop where
  texts : ∀ key, fs.entryAt? (D ++ [name key]) =
    (text? key).map fun text => .file (Utf8.encode text)
  names : ∀ n, fs.entryAt? (D ++ [n]) ≠ none → ∃ key, n = name key

namespace Holds

variable {κ : Type} {D : Location} {name : κ → Bytes} {text? text?' : κ → Option String} {key : κ}

/-- One text is written or removed. -/
theorem change (h : Holds fs D name text?) (hname : Function.Injective name) (now? : Option String)
    (hchanged : Changed fs fs' (D ++ [name key]) (now?.map fun text => .file (Utf8.encode text)))
    (hkey : text?' key = now?) (hkept : ∀ other, other ≠ key → text?' other = text? other) :
    Holds fs' D name text?' where
  texts other := by
    by_cases hother : other = key
    · rw [hother, hkey, hchanged.changed]
    · rw [hkept other hother, ← h.texts, hchanged.kept]
      exact fun e => hother (hname (last_eq_of_concat_eq e))
  names n hn := by
    by_cases hkey : n = name key
    · exact ⟨key, hkey⟩
    · rw [hchanged.kept _ fun e => hkey (last_eq_of_concat_eq e)] at hn
      exact h.names n hn

/-- What changes in another directory does not matter. -/
theorem of_changed {E : Location} {n : Bytes} {now? : Option Entry} (h : Holds fs D name text?)
    (hapart : D ≠ E) (hchanged : Changed fs fs' (E ++ [n]) now?) : Holds fs' D name text? := by
  have hkept : ∀ m, fs'.entryAt? (D ++ [m]) = fs.entryAt? (D ++ [m]) := fun m =>
    hchanged.kept _ (concat_ne hapart _ _)
  exact ⟨fun k => (hkept _).trans (h.texts k), fun m hm => h.names m (hkept m ▸ hm)⟩

end Holds

theorem mirrors_iff : Mirrors fs P A m ↔
    Holds fs P Path.ofString (fun file => m.published[file]?) ∧
      Holds fs A (fun g : GroupName => Path.ofString g.text) fun g => m.aggregates[g]? :=
  ⟨fun h => ⟨⟨h.published, h.publishedNames⟩, h.aggregates, h.groupNames⟩,
    fun ⟨hp, ha⟩ => ⟨hp.texts, ha.texts, hp.names, ha.names⟩⟩

namespace Mirrors

/-! ### Changes on both sides -/

/-- No way leads through the aggregates, which are files. -/
theorem noWayThrough_aggregate (h : Mirrors fs P A m) (g : GroupName) :
    NoWayThrough fs (A ++ [Path.ofString g.text]) := by
  have he := h.aggregates g
  cases hm : m.aggregates[g]? with
  | none => exact .of_vacant (by rw [he, hm]; rfl)
  | some text => exact .of_file (by rw [he, hm]; rfl)

theorem putAggregate (h : Mirrors fs P A m) (hapart : P ≠ A)
    (hchanged : Changed fs fs' (A ++ [Path.ofString g.text]) (some (.file (Utf8.encode text)))) :
    Mirrors fs' P A (m.putAggregate g text) := by
  obtain ⟨hp, ha⟩ := mirrors_iff.1 h
  have hname : Function.Injective fun k : GroupName => Path.ofString k.text :=
    fun _ _ e => GroupName.ext_text (Utf8.encode_injective e)
  refine mirrors_iff.2 ⟨hp.of_changed hapart hchanged,
    ha.change hname (some text) hchanged ?_ fun k hk => ?_⟩
  · rw [MemoryStore.getElem?_putAggregate, if_pos rfl]
  · rw [MemoryStore.getElem?_putAggregate, if_neg hk.symm]

theorem publish (h : Mirrors fs P A m) (hapart : P ≠ A)
    (hchanged : Changed fs fs' (P ++ [Path.ofString file]) (some (.file (Utf8.encode text)))) :
    Mirrors fs' P A (m.publish file text) := by
  obtain ⟨hp, ha⟩ := mirrors_iff.1 h
  refine mirrors_iff.2 ⟨hp.change (fun _ _ => Utf8.encode_injective) (some text) hchanged ?_
    fun other hother => ?_, ha.of_changed hapart.symm hchanged⟩
  · rw [MemoryStore.getElem?_publish, if_pos rfl]
  · rw [MemoryStore.getElem?_publish, if_neg hother.symm]

theorem erase (h : Mirrors fs P A m) (hapart : P ≠ A)
    (hchanged : Changed fs fs' (P ++ [Path.ofString file]) none) :
    Mirrors fs' P A { m with published := m.published.erase file } := by
  obtain ⟨hp, ha⟩ := mirrors_iff.1 h
  refine mirrors_iff.2 ⟨hp.change (fun _ _ => Utf8.encode_injective) none hchanged ?_
    fun other hother => ?_, ha.of_changed hapart.symm hchanged⟩
  · rw [MemoryStore.getElem?_erase, if_pos rfl]
  · rw [MemoryStore.getElem?_erase, if_neg hother.symm]

/-! ### Operations -/

/-- **Both storages list the same files.** -/
theorem listPending (h : Mirrors s.files P A m) (hstands : s.StandsAt P A)
    (hvisible : ∀ file ∈ m.published, Scan.isHidden (Path.ofString file) = false)
    (hunusable : m.unusable = []) :
    Storage.listPending s = .ok ⟨m.publishedNames, []⟩ ∧
      Storage.listPending m = .ok ⟨m.publishedNames, []⟩ := by
  have hchildren : s.files.children P = m.publishedNames.map Path.ofString := by
    refine children_eq (fun name => ?_) (List.pairwise_map.2 m.published.ordered_keys)
    rw [List.mem_map]
    constructor
    · rintro ⟨file, hfile, rfl⟩
      have hsome := Std.TreeMap.mem_iff_isSome_getElem?.1 (Std.TreeMap.mem_keys.1 hfile)
      rw [h.published, ne_eq, Option.map_eq_none_iff]
      exact Option.isSome_iff_ne_none.1 hsome
    · intro hname
      obtain ⟨file, rfl⟩ := h.publishedNames name hname
      rw [h.published, ne_eq, Option.map_eq_none_iff] at hname
      exact ⟨file, Std.TreeMap.mem_keys.2 (Std.TreeMap.mem_iff_isSome_getElem?.2
        (Option.isSome_iff_ne_none.2 hname)), rfl⟩
  have hfindings : Scan.findingsOf s.files s.published P (s.files.children P) =
      m.publishedNames.map fun file => .pending ⟨file, s.publishedPath file,
        Scan.sizeOf s.files (s.publishedPath file)⟩ := by
    rw [hchildren, Scan.findingsOf, List.map_map]
    refine List.map_congr_left fun file hfile => ?_
    have hmem : file ∈ m.published := Std.TreeMap.mem_keys.1 hfile
    obtain ⟨text, htext⟩ := Option.isSome_iff_exists.1 (Std.TreeMap.mem_iff_isSome_getElem?.1 hmem)
    exact Scan.inspect_of_file (hvisible file hmem)
      (show s.files.entryAt? (P ++ [Path.ofString file]) = some (.file (Utf8.encode text)) by
        rw [h.published, htext]; rfl)
  have hempty : Storage.listPending m = .ok ⟨m.publishedNames, m.unusable⟩ := rfl
  refine ⟨?_, by rw [hempty, hunusable]⟩
  rw [listPending_of_reaches hstands.published, hfindings, Scan.pendingNames]
  simp [List.filterMap_map, Function.comp_def, Scan.Finding.pending?, Scan.Finding.unusable?]

/-- **Both storages read the same record** of a published file, or refuse its content for the
same cause. -/
theorem readPublished (h : Mirrors s.files P A m) (hstands : s.StandsAt P A)
    (hname : IsEntryName (Path.ofString file)) (hshort : (s.publishedPath file).length < pathLimit)
    (hpending : file ∈ m.published) :
    (∃ r, Storage.readPublished s file = .ok r ∧ Storage.readPublished m file = .ok r) ∨
    ∃ cause, Storage.readPublished s file = .error (.malformed (s.publishedPath file) cause) ∧
      Storage.readPublished m file = .error (.malformed (Path.ofString file) cause) := by
  obtain ⟨text, htext⟩ :=
    Option.isSome_iff_exists.1 (Std.TreeMap.mem_iff_isSome_getElem?.1 hpending)
  obtain ⟨k, hreach⟩ := hstands.published
  have hmemory : Storage.readPublished m file = MemoryStore.decode file text :=
    MemoryStore.readPublished_of_pending htext
  have hdisk : Storage.readPublished s file =
      (RowFormat.parse text).mapError (.malformed (s.publishedPath file)) := by
    rw [← RowFormat.parseBytes_encode]
    exact readRecord_of_file hreach hname (hreach.checkPath_join hname hshort)
      (by rw [h.published, htext]; rfl)
  rw [hmemory, hdisk, MemoryStore.decode]
  cases RowFormat.parse text with
  | ok r => exact Or.inl ⟨r, rfl, rfl⟩
  | error cause => exact Or.inr ⟨cause, rfl, rfl⟩

/-- **Both storages load the same aggregate** of a group, or refuse its text for the same
cause. -/
theorem loadAggregate (h : Mirrors s.files P A m) (hstands : s.StandsAt P A)
    (hname : IsEntryName (Path.ofString g.text)) (hshort : (s.aggregatePath g).length < pathLimit) :
    (∃ o, Storage.loadAggregate s g = .ok o ∧ Storage.loadAggregate m g = .ok o) ∨
    ∃ cause, Storage.loadAggregate s g = .error (.malformed (s.aggregatePath g) cause) ∧
      Storage.loadAggregate m g = .error (.malformed (Path.ofString g.text) cause) := by
  obtain ⟨k, hreach⟩ := hstands.aggregate
  have hcheck := hreach.checkPath_join hname hshort
  have hdisk : Storage.loadAggregate s g = s.loadAggregate g := rfl
  have hmemory : Storage.loadAggregate m g = m.loadAggregate g := rfl
  rw [hdisk, hmemory, DirectoryStore.loadAggregate, MemoryStore.loadAggregate, aggregatePath]
  cases htext : m.aggregates[g]? with
  | none =>
    rw [readRecord_of_vacant hreach hname hcheck (by rw [h.aggregates, htext]; rfl)]
    exact Or.inl ⟨none, rfl, rfl⟩
  | some text =>
    rw [readRecord_of_file hreach hname hcheck (by rw [h.aggregates, htext]; rfl),
      RowFormat.parseBytes_encode]
    simp only [MemoryStore.decode]
    cases RowFormat.parse text with
    | ok r => exact Or.inl ⟨some r, rfl, rfl⟩
    | error cause => exact Or.inr ⟨cause, rfl, rfl⟩

/-- **Both storages save an aggregate.** -/
theorem saveAggregate (h : Mirrors s.files P A m) (hstands : s.StandsAt P A)
    (hrooted : s.files.IsRooted) (hname : IsEntryName (Path.ofString g.text))
    (hshort : (s.aggregatePath g).length < pathLimit)
    (htemporary : (Path.join (Path.join (absolutePath s.files.workingDirectory) s.aggregate)
      (Replacement.temporaryName 0)).length < pathLimit)
    (hwritable : g ∉ m.readOnly) (r : Record) :
    ∃ files, Storage.saveAggregate s g r = (.ok (), { s with files }) ∧
      Storage.saveAggregate m g r = (.ok (), m.putAggregate g (RowFormat.render r)) ∧
      Changed s.files files (A ++ [Path.ofString g.text])
        (some (.file (Utf8.encode (RowFormat.render r)))) := by
  obtain ⟨k, hreach⟩ := hstands.aggregate
  obtain ⟨started, hstart⟩ := Replacement.exists_start hrooted hreach hname htemporary
  obtain ⟨files, hreplace, hchanged⟩ := replace_of_start hstart
    (hreach.namesEntry_join hname (hreach.checkPath_join hname hshort))
    (h.noWayThrough_aggregate g).not_directory (Utf8.encode (RowFormat.render r))
  have hsave : Storage.saveAggregate s g r = s.saveAggregate g r := rfl
  refine ⟨files, ?_, MemoryStore.saveAggregate_of_writable hwritable r, hchanged⟩
  rw [hsave, DirectoryStore.saveAggregate, aggregatePath, hreplace]

/-- **Both storages remove a published file.** -/
theorem consume (h : Mirrors s.files P A m) (hstands : s.StandsAt P A)
    (hname : IsEntryName (Path.ofString file)) (hshort : (s.publishedPath file).length < pathLimit)
    (hpending : file ∈ m.published) (hunlocked : file ∉ m.locked) :
    Storage.consume s file =
        (.ok (), { s with files := s.files.erase (P ++ [Path.ofString file]) }) ∧
      Storage.consume m file = (.ok (), { m with published := m.published.erase file }) ∧
      NoWayThrough s.files (P ++ [Path.ofString file]) := by
  obtain ⟨text, htext⟩ :=
    Option.isSome_iff_exists.1 (Std.TreeMap.mem_iff_isSome_getElem?.1 hpending)
  obtain ⟨k, hreach⟩ := hstands.published
  have hentry : s.files.entryAt? (P ++ [Path.ofString file]) = some (.file (Utf8.encode text)) := by
    rw [h.published, htext]
    rfl
  exact ⟨consume_of_entry hstands.published hname (hreach.checkPath_join hname hshort) hentry
    Entry.noConfusion, MemoryStore.consume_of_pending hunlocked hpending, .of_file hentry⟩

end Mirrors

end DirectoryStore
end Rollup
