/-
# Folds of records

The fold of `merge` over records, when it fits, is their total (`IsTotal`): every
bucket is the sum of theirs, and the samples of each row are gathered and in
ascending order.  A total does not depend on the order of the records, so folds over
the same records in different orders agree whenever both fit
(`foldlM_merge_perm`).
-/

import Mathlib.Algebra.BigOperators.Group.List.Basic
import Mathlib.Algebra.Ring.Int.Defs
import Mathlib.Data.List.Induction
import Rollup.Proofs.Record.Merge

namespace Rollup
namespace Record

/-! ### Time profiles -/

/-- The number in a bucket of a time profile; zero behind its end. -/
def bucketAt (profile : List Bucket) (k : Nat) : Int := (profile[k]?.map Bucket.value).getD 0

/-- Time profiles of one length with the same numbers are the same. -/
theorem eq_of_bucketAt {p q : List Bucket} (hlength : p.length = q.length)
    (h : ∀ k, bucketAt p k = bucketAt q k) : p = q := by
  refine List.ext_getElem hlength fun k hp hq => Bucket.ext_value ?_
  have := h k
  simpa [bucketAt, hp, hq] using this

/-- **The sum of two time profiles**, bucket by bucket. -/
theorem IsSum.bucketAt_eq {existing incoming sums : List Bucket} (h : IsSum existing incoming sums)
    (k : Nat) : bucketAt sums k = bucketAt existing k + bucketAt incoming k := by
  cases hx : existing[k]? with
  | none => simp [bucketAt, h.added k (List.getElem?_eq_none_iff.1 hx), hx]
  | some x =>
    cases hy : incoming[k]? with
    | none => simp [bucketAt, h.kept k (List.getElem?_eq_none_iff.1 hy), hx, hy]
    | some y =>
      obtain ⟨s, hs, hvalue⟩ := h.both k x y hx hy
      simp [bucketAt, hs, hx, hy, hvalue]

/-! ### Totals -/

/-- One more step of a fold. -/
theorem foldlM_merge_concat {start total incoming : Record} {records : List Record} :
    (records ++ [incoming]).foldlM merge start = .ok total ↔
      ∃ before, records.foldlM merge start = .ok before ∧ before.merge incoming = .ok total := by
  rw [List.foldlM_append]
  cases records.foldlM merge start with
  | error e => simp [bind, Except.bind]
  | ok before => cases h : before.merge incoming <;> simp [bind, Except.bind, pure, Except.pure, h]

/-- A record that adds up others, starting from `start`. -/
structure IsTotal (start : Record) (records : List Record) (total : Record) : Prop where
  /-- A time profile is as long as the longest one. -/
  length : ∀ k, k < total.timeProfiles.length ↔
    k < start.timeProfiles.length ∨ ∃ r ∈ records, k < r.timeProfiles.length
  bucket : ∀ k, bucketAt total.timeProfiles k =
    bucketAt start.timeProfiles k + (records.map fun r => bucketAt r.timeProfiles k).sum
  gathered : ∀ row, (total.samples row).Perm
    (start.samples row ++ records.flatMap fun r => r.samples row)
  ascending : records ≠ [] → ∀ row, (total.samples row).Pairwise fun x y => x.le y

theorem IsTotal.refl (start : Record) : IsTotal start [] start :=
  ⟨by simp, by simp, by simp, fun hne => absurd rfl hne⟩

/-- **Two totals merged** are the total of all their records. -/
theorem IsTotal.merge {start total start' total' merged : Record} {records records' : List Record}
    (h : IsTotal start records total) (h' : IsTotal start' records' total')
    (hm : total.merge total' = .ok merged) : IsTotal start (records ++ start' :: records') merged := by
  have hmerge := merge_eq_ok_iff_isMerge.1 hm
  refine ⟨fun k => ?_, fun k => ?_, fun row => ?_, fun _ => hmerge.ascending⟩
  · have hmax : ∀ m n : Nat, k < max m n ↔ k < m ∨ k < n := fun m n => by omega
    rw [hmerge.timeProfiles.length, hmax, h.length, h'.length]
    simp only [List.mem_append, List.mem_cons, or_and_right, exists_or, exists_eq_left, or_assoc]
  · rw [hmerge.timeProfiles.bucketAt_eq, h.bucket, h'.bucket, List.map_append, List.sum_append,
      List.map_cons, List.sum_cons, Int.add_assoc]
  · rw [List.flatMap_append, List.flatMap_cons, ← List.append_assoc]
    exact (hmerge.gathered row).trans ((h.gathered row).append (h'.gathered row))

/-- **A fold that fits is a total.** -/
theorem isTotal_of_foldlM {start total : Record} {records : List Record}
    (h : records.foldlM merge start = .ok total) : IsTotal start records total := by
  induction records using List.reverseRecOn generalizing total with
  | nil =>
    obtain rfl := Except.ok.inj h
    exact .refl start
  | append_singleton records incoming ih =>
    obtain ⟨before, hbefore, hlast⟩ := foldlM_merge_concat.1 h
    exact (ih hbefore).merge (.refl incoming) hlast

/-- **Totals of the same records are the same**, in whichever order these come. -/
theorem IsTotal.unique {start total total' : Record} {records records' : List Record}
    (hperm : records.Perm records') (hne : records ≠ []) (h : IsTotal start records total)
    (h' : IsTotal start records' total') : total = total' := by
  have hprofiles : total.timeProfiles = total'.timeProfiles := by
    refine eq_of_bucketAt ?_ fun k => ?_
    · have hlt : ∀ k, k < total.timeProfiles.length ↔ k < total'.timeProfiles.length := fun k => by
        rw [h.length, h'.length]
        simp only [hperm.mem_iff]
      have hle := hlt total.timeProfiles.length
      have hge := hlt total'.timeProfiles.length
      omega
    · rw [h.bucket, h'.bucket, (hperm.map _).sum_eq]
  have hsamples : ∀ row, total.samples row = total'.samples row := fun row => by
    have hne' : records' ≠ [] := fun he => hne (by rw [he] at hperm; exact hperm.eq_nil)
    have hboth : (total.samples row).Perm (total'.samples row) :=
      (h.gathered row).trans (((hperm.flatMap_right _).append_left _).trans (h'.gathered row).symm)
    exact hboth.eq_of_pairwise (fun _ _ _ _ => Binary64.le_antisymm) (h.ascending hne row)
      (h'.ascending hne' row)
  have hcounts : total.totalCounts = total'.totalCounts := hsamples .totalCounts
  have hstdevs : total.timeStdevs = total'.timeStdevs := hsamples .timeStdevs
  obtain ⟨profiles, counts, stdevs⟩ := total
  simp_all

/-- **The order of merging does not matter**, as long as every sum fits. -/
theorem foldlM_merge_perm {start total total' : Record} {records records' : List Record}
    (hperm : records.Perm records') (h : records.foldlM merge start = .ok total)
    (h' : records'.foldlM merge start = .ok total') : total = total' := by
  by_cases hne : records = []
  · subst hne
    obtain rfl := hperm.symm.eq_nil
    exact Except.ok.inj (h.symm.trans h')
  · exact (isTotal_of_foldlM h).unique hperm hne (isTotal_of_foldlM h')

end Record
end Rollup
