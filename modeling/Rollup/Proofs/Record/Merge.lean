/-
# What merging two records gives

Two time profiles have a sum (`IsSum`) unless at some place both hold a bucket and the
two do not fit together (`OverflowsAt`).  Adding profiles decides between the two: it gives
the sum if there is one (`addProfiles_eq_ok_iff`), and is refused at the first place that
overflows if there is any (`addProfiles_eq_error_iff`).  Samples are gathered and sorted,
which leaves no choice, because the total order tells any two doubles apart
(`eq_mergeSamples_iff`).  So what a merge gives, and why it is refused, is settled by what
the two records hold (`merge_sums_or_overflows`).
-/

import Rollup.Proofs.Record.Finite

namespace Rollup
namespace Record

/-! ### The sum of two time profiles -/

/-- The sum of two time profiles: bucket by bucket where both have one, and the rest of the
longer one as it is. -/
structure IsSum (existing incoming sums : List Bucket) : Prop where
  length : sums.length = max existing.length incoming.length
  both : ∀ (k : Nat) (x y : Bucket), existing[k]? = some x → incoming[k]? = some y →
    ∃ s : Bucket, sums[k]? = some s ∧ s.value = x.value + y.value
  kept : ∀ k : Nat, incoming.length ≤ k → sums[k]? = existing[k]?
  added : ∀ k : Nat, existing.length ≤ k → sums[k]? = incoming[k]?

/-- At place `k` both profiles hold a bucket, and the sum of the two does not fit. -/
structure OverflowsAt (existing incoming : List Bucket) (k : Nat) (x y : Bucket) : Prop where
  held : existing[k]? = some x
  added : incoming[k]? = some y
  unfit : ¬(-2 ^ 63 ≤ x.value + y.value ∧ x.value + y.value < 2 ^ 63)

/-- The first place that overflows. -/
structure IsFirstOverflow (existing incoming : List Bucket) (k : Nat) (x y : Bucket) : Prop
    extends OverflowsAt existing incoming k x y where
  first : ∀ j < k, ∀ x' y', ¬OverflowsAt existing incoming j x' y'

section Profiles

variable {existing incoming sums : List Bucket} {x y a b s : Bucket} {k n : Nat}

theorem isSum_nil_left : IsSum [] incoming sums ↔ sums = incoming := by
  constructor
  · intro h
    exact List.ext_getElem? fun k => h.added k (Nat.zero_le k)
  · rintro rfl
    refine ⟨by simp, fun k x y hx => by simp at hx, fun k hk => ?_, fun _ _ => rfl⟩
    rw [List.getElem?_eq_none hk, List.getElem?_nil]

theorem isSum_nil_right : IsSum existing [] sums ↔ sums = existing := by
  constructor
  · intro h
    exact List.ext_getElem? fun k => h.kept k (Nat.zero_le k)
  · rintro rfl
    refine ⟨by simp, fun k x y _ hy => by simp at hy, fun _ _ => rfl, fun k hk => ?_⟩
    rw [List.getElem?_eq_none hk, List.getElem?_nil]

theorem isSum_cons : IsSum (x :: existing) (y :: incoming) sums ↔
    ∃ s rest, sums = s :: rest ∧ s.value = x.value + y.value ∧ IsSum existing incoming rest := by
  constructor
  · intro h
    have hlength := h.length
    obtain ⟨s, hs, hvalue⟩ := h.both 0 x y rfl rfl
    cases sums with
    | nil => simp at hs
    | cons s' rest =>
      obtain rfl : s' = s := Option.some.inj hs
      simp only [List.length_cons] at hlength
      refine ⟨s', rest, rfl, hvalue, by omega, fun k => h.both (k + 1), fun k hk => ?_, fun k hk => ?_⟩
      · exact h.kept (k + 1) (Nat.succ_le_succ hk)
      · exact h.added (k + 1) (Nat.succ_le_succ hk)
  · rintro ⟨s, rest, rfl, hvalue, h⟩
    have hlength := h.length
    refine ⟨by simp only [List.length_cons]; omega, fun k x' y' hx hy => ?_, fun k hk => ?_,
      fun k hk => ?_⟩
    · cases k with
      | zero =>
        obtain rfl : x = x' := Option.some.inj hx
        obtain rfl : y = y' := Option.some.inj hy
        exact ⟨s, rfl, hvalue⟩
      | succ k => exact h.both k x' y' hx hy
    · cases k with
      | zero => simp at hk
      | succ k => exact h.kept k (Nat.le_of_succ_le_succ hk)
    · cases k with
      | zero => simp at hk
      | succ k => exact h.added k (Nat.le_of_succ_le_succ hk)

/-- Profiles that have a sum overflow nowhere. -/
theorem IsSum.not_overflowsAt (h : IsSum existing incoming sums) : ¬OverflowsAt existing incoming k x y := by
  intro hover
  obtain ⟨s, -, hvalue⟩ := h.both k x y hover.held hover.added
  exact hover.unfit (hvalue ▸ ⟨s.least_le, s.value_lt⟩)

theorem overflowsAt_cons_succ : OverflowsAt (x :: existing) (y :: incoming) (k + 1) a b ↔
    OverflowsAt existing incoming k a b :=
  ⟨fun h => ⟨h.held, h.added, h.unfit⟩, fun h => ⟨h.held, h.added, h.unfit⟩⟩

theorem overflowsAt_cons_zero :
    OverflowsAt (x :: existing) (y :: incoming) 0 a b ↔ a = x ∧ b = y ∧ x.add? y = none := by
  constructor
  · intro h
    obtain rfl : x = a := Option.some.inj h.held
    obtain rfl : y = b := Option.some.inj h.added
    exact ⟨rfl, rfl, Bucket.add?_eq_none_iff.2 h.unfit⟩
  · rintro ⟨rfl, rfl, h⟩
    exact ⟨rfl, rfl, Bucket.add?_eq_none_iff.1 h⟩

theorem isFirstOverflow_of_unfit (h : x.add? y = none) :
    IsFirstOverflow (x :: existing) (y :: incoming) k a b ↔ k = 0 ∧ a = x ∧ b = y := by
  constructor
  · intro hfirst
    cases k with
    | zero =>
      obtain ⟨ha, hb, -⟩ := overflowsAt_cons_zero.1 hfirst.toOverflowsAt
      exact ⟨rfl, ha, hb⟩
    | succ k =>
      exact absurd (overflowsAt_cons_zero.2 ⟨rfl, rfl, h⟩) (hfirst.first 0 (Nat.succ_pos k) x y)
  · rintro ⟨rfl, rfl, rfl⟩
    exact ⟨overflowsAt_cons_zero.2 ⟨rfl, rfl, h⟩, fun j hj => absurd hj (Nat.not_lt_zero j)⟩

theorem isFirstOverflow_of_fits (h : x.add? y = some s) :
    IsFirstOverflow (x :: existing) (y :: incoming) k a b ↔
      ∃ j, k = j + 1 ∧ IsFirstOverflow existing incoming j a b := by
  have hfits : ∀ a b, ¬OverflowsAt (x :: existing) (y :: incoming) 0 a b := by
    intro a b hover
    obtain ⟨-, -, hnone⟩ := overflowsAt_cons_zero.1 hover
    cases hnone.symm.trans h
  constructor
  · intro hfirst
    cases k with
    | zero => exact absurd hfirst.toOverflowsAt (hfits a b)
    | succ k =>
      refine ⟨k, rfl, overflowsAt_cons_succ.1 hfirst.toOverflowsAt, fun j hj a' b' hover => ?_⟩
      exact hfirst.first (j + 1) (Nat.succ_lt_succ hj) a' b' (overflowsAt_cons_succ.2 hover)
  · rintro ⟨k, rfl, hfirst⟩
    refine ⟨overflowsAt_cons_succ.2 hfirst.toOverflowsAt, fun j hj a' b' hover => ?_⟩
    cases j with
    | zero => exact hfits a' b' hover
    | succ j => exact hfirst.first j (Nat.lt_of_succ_lt_succ hj) a' b' (overflowsAt_cons_succ.1 hover)

/-- **Adding profiles gives their sum**, if they have one. -/
theorem addProfiles_eq_ok_iff :
    addProfiles n existing incoming = .ok sums ↔ IsSum existing incoming sums := by
  induction existing generalizing n incoming sums with
  | nil => rw [addProfiles, Except.ok.injEq, isSum_nil_left, eq_comm]
  | cons x existing ih =>
    cases incoming with
    | nil => rw [addProfiles, Except.ok.injEq, isSum_nil_right, eq_comm]; simp
    | cons y incoming =>
      rw [addProfiles, isSum_cons]
      cases hsum : x.add? y with
      | none =>
        refine ⟨(nomatch ·), ?_⟩
        rintro ⟨s, rest, -, hvalue, -⟩
        cases hsum.symm.trans (Bucket.add?_eq_some_iff.2 hvalue)
      | some s =>
        simp only
        constructor
        · intro h
          cases hrest : addProfiles (n + 1) existing incoming with
          | error e => rw [hrest] at h; cases h
          | ok rest =>
            rw [hrest] at h
            exact ⟨s, rest, (Except.ok.inj h).symm, Bucket.add?_eq_some_iff.1 hsum, ih.1 hrest⟩
        · rintro ⟨s', rest, rfl, hvalue, h⟩
          obtain rfl : s = s' := Option.some.inj (hsum.symm.trans (Bucket.add?_eq_some_iff.2 hvalue))
          rw [ih.2 h]
          rfl

/-- **Adding profiles is refused at the first place that overflows**, if there is one. -/
theorem addProfiles_eq_error_iff {e : MergeError} : addProfiles n existing incoming = .error e ↔
    ∃ k, e.index = n + k ∧ IsFirstOverflow existing incoming k e.existing e.incoming := by
  induction existing generalizing n incoming with
  | nil =>
    refine ⟨(nomatch ·), ?_⟩
    rintro ⟨k, -, hfirst⟩
    have := hfirst.held
    simp at this
  | cons x existing ih =>
    cases incoming with
    | nil =>
      refine ⟨(nomatch ·), ?_⟩
      rintro ⟨k, -, hfirst⟩
      have := hfirst.added
      simp at this
    | cons y incoming =>
      rw [addProfiles]
      cases hsum : x.add? y with
      | none =>
        simp only [isFirstOverflow_of_unfit hsum, Except.error.injEq]
        constructor
        · rintro rfl
          exact ⟨0, rfl, rfl, rfl, rfl⟩
        · rintro ⟨k, hindex, rfl, hx, hy⟩
          obtain ⟨index, x', y'⟩ := e
          obtain rfl : index = n := hindex
          obtain rfl : x' = x := hx
          obtain rfl : y' = y := hy
          rfl
      | some s =>
        have hrest : (addProfiles (n + 1) existing incoming).map (s :: ·) = .error e ↔
            addProfiles (n + 1) existing incoming = .error e := by
          cases addProfiles (n + 1) existing incoming <;> simp [Except.map]
        simp only [hrest, ih, isFirstOverflow_of_fits hsum]
        constructor
        · rintro ⟨k, hindex, hfirst⟩
          exact ⟨k + 1, by omega, k, rfl, hfirst⟩
        · rintro ⟨k, hindex, j, rfl, hfirst⟩
          exact ⟨j, by omega, hfirst⟩

end Profiles

/-! ### Samples -/

/-- **The samples of both in ascending order** are the only ones: no two doubles are alike in
the total order. -/
theorem eq_mergeSamples_iff {existing incoming xs : List Binary64} :
    xs = mergeSamples existing incoming ↔
      xs.Perm (existing ++ incoming) ∧ xs.Pairwise fun x y => x.le y := by
  have hsorted := Binary64.sort_pairwise (existing ++ incoming)
  have hperm := Binary64.sort_perm (existing ++ incoming)
  constructor
  · rintro rfl
    exact ⟨hperm, hsorted⟩
  · rintro ⟨hxs, hascending⟩
    exact (hxs.trans hperm.symm).eq_of_pairwise (fun _ _ _ _ => Binary64.le_antisymm) hascending hsorted

/-! ### Records -/

/-- A record that holds the sum of two time profiles, and in each row of samples those of both,
bit for bit and in ascending order. -/
structure IsMerge (existing incoming merged : Record) : Prop where
  timeProfiles : IsSum existing.timeProfiles incoming.timeProfiles merged.timeProfiles
  gathered : ∀ row, (merged.samples row).Perm (existing.samples row ++ incoming.samples row)
  ascending : ∀ row, (merged.samples row).Pairwise fun x y => x.le y

section Merging

variable {existing incoming merged : Record} {e : MergeError}

theorem merge_eq_ok_iff_isMerge :
    existing.merge incoming = .ok merged ↔ IsMerge existing incoming merged := by
  rw [merge_eq_ok_iff, addProfiles_eq_ok_iff, eq_mergeSamples_iff, eq_mergeSamples_iff]
  constructor
  · rintro ⟨hprofiles, ⟨hcounts, hcounts'⟩, hstdevs, hstdevs'⟩
    refine ⟨hprofiles, fun row => ?_, fun row => ?_⟩
    · cases row with
      | timeProfiles => exact .nil
      | totalCounts => exact hcounts
      | timeStdevs => exact hstdevs
    · cases row with
      | timeProfiles => exact .nil
      | totalCounts => exact hcounts'
      | timeStdevs => exact hstdevs'
  · intro h
    exact ⟨h.timeProfiles, ⟨h.gathered .totalCounts, h.ascending .totalCounts⟩,
      h.gathered .timeStdevs, h.ascending .timeStdevs⟩

theorem merge_eq_error_iff : existing.merge incoming = .error e ↔
    IsFirstOverflow existing.timeProfiles incoming.timeProfiles e.index e.existing e.incoming := by
  have hprofiles : existing.merge incoming = .error e ↔
      addProfiles 0 existing.timeProfiles incoming.timeProfiles = .error e := by
    unfold merge
    cases addProfiles 0 existing.timeProfiles incoming.timeProfiles <;>
      simp [bind, Except.bind, pure, Except.pure]
  rw [hprofiles, addProfiles_eq_error_iff]
  constructor
  · rintro ⟨k, hindex, hfirst⟩
    rwa [hindex, Nat.zero_add]
  · intro hfirst
    exact ⟨e.index, (Nat.zero_add _).symm, hfirst⟩

/-- **A merge is possible unless some place overflows.** -/
theorem exists_merge_iff : (∃ merged, existing.merge incoming = .ok merged) ↔
    ∀ k x y, ¬OverflowsAt existing.timeProfiles incoming.timeProfiles k x y := by
  constructor
  · rintro ⟨merged, h⟩ k x y
    exact (merge_eq_ok_iff_isMerge.1 h).timeProfiles.not_overflowsAt
  · intro h
    cases hmerge : existing.merge incoming with
    | ok merged => exact ⟨merged, rfl⟩
    | error e => exact absurd (merge_eq_error_iff.1 hmerge).toOverflowsAt (h _ _ _)

end Merging

/-- **What a merge gives.**  It succeeds with the one record that adds up the time profiles and
holds the samples of both in ascending order.  It fails if both records have a bucket at some
place and the sum of the two does not fit; the error then names the first such place and the two
buckets there. -/
theorem merge_sums_or_overflows (existing incoming : Record) :
    (∀ merged, existing.merge incoming = .ok merged ↔ IsMerge existing incoming merged) ∧
    (∀ e, existing.merge incoming = .error e ↔ IsFirstOverflow existing.timeProfiles
      incoming.timeProfiles e.index e.existing e.incoming) ∧
    ((∃ e, existing.merge incoming = .error e) ↔
      ∃ k x y, OverflowsAt existing.timeProfiles incoming.timeProfiles k x y) := by
  refine ⟨fun _ => merge_eq_ok_iff_isMerge, fun _ => merge_eq_error_iff, ?_⟩
  constructor
  · rintro ⟨e, h⟩
    exact ⟨_, _, _, (merge_eq_error_iff.1 h).toOverflowsAt⟩
  · rintro ⟨k, x, y, hover⟩
    cases hmerge : existing.merge incoming with
    | error e => exact ⟨e, rfl⟩
    | ok merged => exact absurd hover (exists_merge_iff.1 ⟨merged, hmerge⟩ k x y)

/-- The second bucket overflows; the third one, which overflows as well, is not looked at. -/
example :
    let most : Bucket := .clamp (2 ^ 63 - 1)
    let one : Bucket := .clamp 1
    merge ⟨[one, most, most], [], []⟩ ⟨[one, one, most], [], []⟩ = .error ⟨1, most, one⟩ := by
  intro most one
  rfl

end Record
end Rollup
