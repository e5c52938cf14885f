/-
# The operations of a storage in memory

What each operation of a storage in memory does, in terms of its texts.  A record
that is read is finite, since only such records are parsed, and the text of a finite
record is loaded as that record (`MemoryStore.loadAggregate_of_render`).
-/

import Rollup.Proofs.RowFormat.RoundTrip
import Rollup.Storage.Memory

namespace Rollup
namespace MemoryStore

variable {s t : MemoryStore} {g : GroupName} {name file text : String} {r : Record}

/-! ### Reading -/

theorem decode_eq_ok_iff : decode name text = .ok r ↔ RowFormat.parse text = .ok r := by
  unfold decode
  cases RowFormat.parse text <;> simp [Except.mapError]

theorem decode_eq_error_iff {e : StorageError} :
    decode name text = .error e ↔
      ∃ cause, RowFormat.parse text = .error cause ∧ e = .malformed (Path.ofString name) cause := by
  unfold decode
  cases RowFormat.parse text <;> simp [Except.mapError, eq_comm]

theorem readPublished_of_pending (h : s.published[file]? = some text) :
    s.readPublished file = decode file text := by rw [readPublished, h]

theorem readPublished_congr (h : t.published[file]? = s.published[file]?) :
    t.readPublished file = s.readPublished file := by unfold readPublished; rw [h]

/-- Only a pending file is read. -/
theorem exists_text_of_readPublished (h : s.readPublished file = .ok r) :
    ∃ text, s.published[file]? = some text ∧ RowFormat.parse text = .ok r := by
  unfold readPublished at h
  split at h
  · rename_i text htext
    exact ⟨text, htext, decode_eq_ok_iff.1 h⟩
  · cases h

theorem mem_of_readPublished (h : s.readPublished file = .ok r) : file ∈ s.published := by
  obtain ⟨text, htext, -⟩ := exists_text_of_readPublished h
  rw [Std.TreeMap.mem_iff_isSome_getElem?, htext]
  rfl

/-- **What is read is finite.** -/
theorem isFinite_readPublished (h : s.readPublished file = .ok r) : r.IsFinite := by
  obtain ⟨text, -, hparse⟩ := exists_text_of_readPublished h
  exact RowFormat.isFinite_of_parse hparse

theorem loadAggregate_eq_some_iff :
    s.loadAggregate g = .ok (some r) ↔
      ∃ text, s.aggregates[g]? = some text ∧ RowFormat.parse text = .ok r := by
  unfold loadAggregate
  cases s.aggregates[g]? with
  | none => simp
  | some text =>
    have hmap : (decode g.text text).map some = .ok (some r) ↔ decode g.text text = .ok r := by
      cases decode g.text text <;> simp [Except.map]
    simp [hmap, decode_eq_ok_iff]

/-- An aggregate cannot be loaded exactly if its text does not parse. -/
theorem loadAggregate_eq_error_iff {e : StorageError} :
    s.loadAggregate g = .error e ↔ ∃ text cause, s.aggregates[g]? = some text ∧
      RowFormat.parse text = .error cause ∧ e = .malformed (Path.ofString g.text) cause := by
  unfold loadAggregate
  cases s.aggregates[g]? with
  | none => simp
  | some text =>
    have hmap : (decode g.text text).map some = .error e ↔ decode g.text text = .error e := by
      cases decode g.text text <;> simp [Except.map]
    simp [hmap, decode_eq_error_iff]

theorem isFinite_loadAggregate (h : s.loadAggregate g = .ok (some r)) : r.IsFinite := by
  obtain ⟨text, -, hparse⟩ := loadAggregate_eq_some_iff.1 h
  exact RowFormat.isFinite_of_parse hparse

/-- **The text of a finite record is loaded as that record.** -/
theorem loadAggregate_of_render (h : s.aggregates[g]? = some (RowFormat.render r))
    (hr : r.IsFinite) : s.loadAggregate g = .ok (some r) :=
  loadAggregate_eq_some_iff.2 ⟨_, h, RowFormat.parse_render_of_isFinite hr⟩

theorem loadAggregate_congr (h : t.aggregates[g]? = s.aggregates[g]?) :
    t.loadAggregate g = s.loadAggregate g := by rw [loadAggregate, h, ← loadAggregate]

/-! ### Listing -/

theorem mem_publishedNames : file ∈ s.publishedNames ↔ file ∈ s.published := Std.TreeMap.mem_keys

/-- **Files are listed in the order of their names**, each once. -/
theorem ordered_publishedNames (s : MemoryStore) :
    s.publishedNames.Pairwise fun f f' => Utf8.compareText f f' = .lt :=
  Std.TreeMap.ordered_keys

/-! ### Saving and removing -/

theorem saveAggregate_of_readOnly (h : g ∈ s.readOnly) (r : Record) :
    Storage.saveAggregate s g r = (.error (.io (Path.ofString g.text) .denied), s) := by
  show s.saveAggregate g r = _
  rw [saveAggregate, if_pos h]

theorem saveAggregate_of_writable (h : g ∉ s.readOnly) (r : Record) :
    Storage.saveAggregate s g r = (.ok (), s.putAggregate g (RowFormat.render r)) := by
  show s.saveAggregate g r = _
  rw [saveAggregate, if_neg h]

theorem getElem?_putAggregate (text : String) (k : GroupName) :
    (s.putAggregate g text).aggregates[k]? = if g = k then some text else s.aggregates[k]? := by
  simp only [putAggregate, Std.TreeMap.getElem?_insert, Std.LawfulEqCmp.compare_eq_iff_eq]

theorem getElem?_publish (file text other : String) :
    (s.publish file text).published[other]? =
      if file = other then some text else s.published[other]? := by
  simp only [publish, Std.TreeMap.getElem?_insert, Std.LawfulEqCmp.compare_eq_iff_eq]

theorem getElem?_erase (file other : String) :
    (s.published.erase file)[other]? = if file = other then none else s.published[other]? := by
  simp only [Std.TreeMap.getElem?_erase, Std.LawfulEqCmp.compare_eq_iff_eq]

theorem consume_of_locked (h : file ∈ s.locked) :
    Storage.consume s file = (.error (.io (Path.ofString file) .denied), s) := by
  show s.consume file = _
  rw [consume, if_pos h]

theorem consume_of_pending (hl : file ∉ s.locked) (hp : file ∈ s.published) :
    Storage.consume s file = (.ok (), { s with published := s.published.erase file }) := by
  show s.consume file = _
  rw [consume, if_neg hl, if_pos hp]

end MemoryStore
end Rollup
