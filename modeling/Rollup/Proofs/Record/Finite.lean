/-
# Finite records

A record is finite when all its samples are.  Only such records come out of
reading, and merging keeps them finite (`Record.IsFinite.merge`).  In a record that
is not finite one sample is the first that is not, row by row
(`exists_isFirstNonFinite`).
-/

import Rollup.Record.Merge

namespace Rollup
namespace Record

/-- The samples in a row; time profiles hold buckets and no samples. -/
def samples (r : Record) : Row → List Binary64
  | .timeProfiles => []
  | .totalCounts => r.totalCounts
  | .timeStdevs => r.timeStdevs

/-- All samples are finite. -/
def IsFinite (r : Record) : Prop := ∀ row, ∀ x ∈ r.samples row, x.isFinite

theorem isFinite_iff {r : Record} :
    r.IsFinite ↔ (∀ x ∈ r.totalCounts, x.isFinite) ∧ ∀ x ∈ r.timeStdevs, x.isFinite := by
  refine ⟨fun h => ⟨h .totalCounts, h .timeStdevs⟩, fun h row => ?_⟩
  cases row with
  | timeProfiles => exact fun _ hx => absurd hx List.not_mem_nil
  | totalCounts => exact h.1
  | timeStdevs => exact h.2

theorem isFinite_empty : empty.IsFinite := isFinite_iff.2 ⟨by simp [empty], by simp [empty]⟩

theorem mem_mergeSamples {x : Binary64} {existing incoming : List Binary64} :
    x ∈ mergeSamples existing incoming ↔ x ∈ existing ∨ x ∈ incoming := by
  rw [mergeSamples, (Binary64.sort_perm _).mem_iff, List.mem_append]

/-- What a merge that fits gives, row by row. -/
theorem merge_eq_ok_iff {existing incoming merged : Record} :
    existing.merge incoming = .ok merged ↔
      addProfiles 0 existing.timeProfiles incoming.timeProfiles = .ok merged.timeProfiles ∧
      merged.totalCounts = mergeSamples existing.totalCounts incoming.totalCounts ∧
      merged.timeStdevs = mergeSamples existing.timeStdevs incoming.timeStdevs := by
  obtain ⟨profiles, counts, stdevs⟩ := merged
  unfold merge
  cases h : addProfiles 0 existing.timeProfiles incoming.timeProfiles with
  | error e => simp [bind, Except.bind]
  | ok s =>
    simp only [bind, Except.bind, pure, Except.pure, Except.ok.injEq, Record.mk.injEq]
    exact ⟨fun ⟨h₁, h₂, h₃⟩ => ⟨h₁, h₂.symm, h₃.symm⟩, fun ⟨h₁, h₂, h₃⟩ => ⟨h₁, h₂.symm, h₃.symm⟩⟩

/-- **Merging keeps records finite.** -/
theorem IsFinite.merge {existing incoming merged : Record} (he : existing.IsFinite)
    (hi : incoming.IsFinite) (h : existing.merge incoming = .ok merged) : merged.IsFinite := by
  obtain ⟨-, hcounts, hstdevs⟩ := merge_eq_ok_iff.1 h
  rw [isFinite_iff] at he hi ⊢
  rw [hcounts, hstdevs]
  exact ⟨fun x hx => (mem_mergeSamples.1 hx).elim (he.1 x) (hi.1 x),
    fun x hx => (mem_mergeSamples.1 hx).elim (he.2 x) (hi.2 x)⟩

/-- The sample `x` at place `i` of a row, counted from zero, is the first one that
is not finite, in the order in which the rows are written. -/
structure IsFirstNonFinite (r : Record) (row : Row) (i : Nat) (x : Binary64) : Prop where
  sample : (r.samples row)[i]? = some x
  not_finite : x.isFinite = false
  finite_before : ∀ y ∈ (r.samples row).take i, y.isFinite
  finite_above : row = .timeStdevs → ∀ y ∈ r.totalCounts, y.isFinite

/-- A list has a first member without a property, or all its members have it. -/
theorem exists_first_or_forall (p : Binary64 → Bool) (xs : List Binary64) :
    (∃ i x, xs[i]? = some x ∧ p x = false ∧ ∀ y ∈ xs.take i, p y) ∨ ∀ x ∈ xs, p x := by
  induction xs with
  | nil => exact Or.inr fun _ hx => absurd hx List.not_mem_nil
  | cons x xs ih =>
    cases hx : p x with
    | false => exact Or.inl ⟨0, x, rfl, hx, fun _ hy => absurd hy (by simp)⟩
    | true =>
      rcases ih with ⟨i, y, hy, hpy, hbefore⟩ | hall
      · refine Or.inl ⟨i + 1, y, hy, hpy, fun z hz => ?_⟩
        rw [List.take_succ_cons] at hz
        rcases List.mem_cons.1 hz with rfl | hz
        · exact hx
        · exact hbefore z hz
      · exact Or.inr (List.forall_mem_cons.2 ⟨hx, hall⟩)

theorem exists_isFirstNonFinite {r : Record} (h : ¬r.IsFinite) :
    ∃ row i x, r.IsFirstNonFinite row i x := by
  rcases exists_first_or_forall Binary64.isFinite r.totalCounts with ⟨i, x, hx, hn, hb⟩ | hcounts
  · exact ⟨.totalCounts, i, x, hx, hn, hb, fun hrow => nomatch hrow⟩
  rcases exists_first_or_forall Binary64.isFinite r.timeStdevs with ⟨i, x, hx, hn, hb⟩ | hstdevs
  · exact ⟨.timeStdevs, i, x, hx, hn, hb, fun _ => hcounts⟩
  · exact absurd (isFinite_iff.2 ⟨hcounts, hstdevs⟩) h

end Record
end Rollup
