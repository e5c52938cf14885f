/-
# The grand total of a time profile

The grand total is summed bucket by bucket and held at a bound whenever a step passes it.  What
passes the bound is lost, and buckets of the other sign then lead back from the bound: so the
total depends on the order of the buckets, and may miss a sum that fits
(`Record.profileTotal_misses_sum`).

Begun at any number, such a total is the exact sum held between two numbers, the totals of the
same buckets begun at the least and at the greatest number (`Bucket.total_value`).  This decides
when the grand total is the number nearest to the exact sum.  It is, if no sum on the way passes
a bound by more than the whole sum does (`Bucket.total_of_isSteady`), as when all of them fit, or
when no two buckets have opposite signs (`Record.profileTotal_is_held_sum`).
-/

import Mathlib.Algebra.BigOperators.Group.List.Basic
import Mathlib.Algebra.Order.BigOperators.Group.List
import Mathlib.Algebra.Order.Ring.Int
import Rollup.Report.Basic

namespace Rollup
namespace Bucket

/-- The least number that fits. -/
def least : Bucket := ⟨-2 ^ 63, by decide, by decide⟩

/-- The greatest number that fits. -/
def greatest : Bucket := ⟨2 ^ 63 - 1, by decide, by decide⟩

/-- The exact sum. -/
def sum (buckets : List Bucket) : Int := (buckets.map value).sum

/-- The sum begun at a number and held at a bound whenever a step passes it. -/
def total (start : Bucket) (buckets : List Bucket) : Bucket := buckets.foldl saturatingAdd start

variable {b start : Bucket} {buckets front rest : List Bucket} {c : Int}

@[simp] theorem sum_nil : sum [] = 0 := rfl

@[simp] theorem sum_cons (b : Bucket) (buckets : List Bucket) :
    sum (b :: buckets) = b.value + sum buckets := List.sum_cons

theorem sum_append (front rest : List Bucket) : sum (front ++ rest) = sum front + sum rest := by
  rw [sum, List.map_append, List.sum_append]
  rfl

theorem sum_perm (h : front.Perm rest) : sum front = sum rest := (h.map value).sum_eq

theorem sum_nonneg (h : ∀ b ∈ buckets, 0 ≤ b.value) : 0 ≤ sum buckets := by
  refine List.sum_nonneg fun i hi => ?_
  obtain ⟨b, hb, rfl⟩ := List.mem_map.1 hi
  exact h b hb

theorem sum_nonpos (h : ∀ b ∈ buckets, b.value ≤ 0) : sum buckets ≤ 0 := by
  induction buckets with
  | nil => exact Int.le_refl 0
  | cons b buckets ih =>
    have hfirst := h b (List.mem_cons_self ..)
    have hrest := ih fun b hb => h b (List.mem_cons_of_mem _ hb)
    rw [sum_cons]
    omega

@[simp] theorem value_clamp (i : Int) : (clamp i).value = max (-2 ^ 63) (min i (2 ^ 63 - 1)) := rfl

@[simp] theorem total_nil (start : Bucket) : total start [] = start := rfl

theorem total_cons (start b : Bucket) (buckets : List Bucket) :
    total start (b :: buckets) = total (start.saturatingAdd b) buckets := rfl

/-! ### Where a total is held -/

/-- A number that is held twice is held between the images of the first two bounds. -/
theorem hold_hold {m n p q : Int} (hmn : m ≤ n) (hpq : p ≤ q) (z s : Int) :
    max m (min n (max p (min q z) + s)) =
      max (max m (min n (p + s))) (min (max m (min n (q + s))) (z + s)) := by
  rcases le_total z p with hp | hp
  · rw [min_eq_right (hp.trans hpq), max_eq_left hp]
    omega
  · rw [max_eq_right (le_min hpq hp)]
    omega

/-- A step from anywhere is held between the steps from the bounds. -/
theorem saturatingAdd_eq (start b : Bucket) : (start.saturatingAdd b).value =
    max (least.saturatingAdd b).value
      (min (greatest.saturatingAdd b).value (start.value + b.value)) := by
  have hlow := start.least_le
  have hhigh := start.value_lt
  simp only [saturatingAdd_value, least, greatest]
  omega

/-- **A total is the exact sum, held between two numbers** that depend on the buckets only. -/
theorem total_value (start : Bucket) (buckets : List Bucket) :
    (total start buckets).value = max (total least buckets).value
      (min (total greatest buckets).value (start.value + sum buckets)) := by
  induction buckets generalizing start with
  | nil =>
    have hlow := start.least_le
    have hhigh := start.value_lt
    simp only [total_nil, least, greatest, sum_nil]
    omega
  | cons b buckets ih =>
    -- The first step moves and holds the start and both bounds alike.
    have hends : (total least buckets).value ≤ (total greatest buckets).value := by
      rw [ih greatest]
      exact le_max_left _ _
    have hsteps : (least.saturatingAdd b).value ≤ (greatest.saturatingAdd b).value := by
      rw [saturatingAdd_eq greatest]
      exact le_max_left _ _
    rw [total_cons, total_cons, total_cons, ih, ih (least.saturatingAdd b),
      ih (greatest.saturatingAdd b), saturatingAdd_eq start, sum_cons, ← Int.add_assoc]
    exact hold_hold hends hsteps _ _

/-- A total reaches `c` if the exact sum does, and if each end of the buckets does that begins
at the greatest number. -/
theorem le_total (hsum : c ≤ start.value + sum buckets)
    (hends : ∀ rest, rest <:+ buckets → c ≤ 2 ^ 63 - 1 + sum rest) :
    c ≤ (total start buckets).value := by
  induction buckets generalizing start with
  | nil => simpa using hsum
  | cons b buckets ih =>
    have hend := hends buckets (List.suffix_cons ..)
    rw [sum_cons] at hsum
    refine ih ?_ fun rest hrest => hends rest (hrest.trans (List.suffix_cons ..))
    rw [saturatingAdd_value]
    omega

theorem total_le (hsum : start.value + sum buckets ≤ c)
    (hends : ∀ rest, rest <:+ buckets → -2 ^ 63 + sum rest ≤ c) :
    (total start buckets).value ≤ c := by
  induction buckets generalizing start with
  | nil => simpa using hsum
  | cons b buckets ih =>
    have hend := hends buckets (List.suffix_cons ..)
    rw [sum_cons] at hsum
    refine ih ?_ fun rest hrest => hends rest (hrest.trans (List.suffix_cons ..))
    rw [saturatingAdd_value]
    omega

/-! ### Sums on the way -/

/-- No sum on the way passes a bound by more than the whole sum does. -/
def IsSteady (buckets : List Bucket) : Prop :=
  ∀ front, front <+: buckets →
    min (-2 ^ 63) (sum buckets) ≤ sum front ∧ sum front ≤ max (2 ^ 63 - 1) (sum buckets)

/-- No two buckets have opposite signs. -/
def IsOneSided (buckets : List Bucket) : Prop :=
  (∀ b ∈ buckets, 0 ≤ b.value) ∨ ∀ b ∈ buckets, b.value ≤ 0

theorem IsOneSided.perm (h : IsOneSided buckets) (hperm : rest.Perm buckets) : IsOneSided rest :=
  h.imp (fun h b hb => h b (hperm.mem_iff.1 hb)) fun h b hb => h b (hperm.mem_iff.1 hb)

/-- Sums of buckets of one sign move in one direction. -/
theorem IsOneSided.isSteady (h : IsOneSided buckets) : IsSteady buckets := by
  rintro front ⟨rest, rfl⟩
  rw [sum_append]
  rcases h with h | h
  · have hfront := sum_nonneg fun b hb => h b (List.mem_append_left rest hb)
    have hrest := sum_nonneg fun b hb => h b (List.mem_append_right front hb)
    omega
  · have hfront := sum_nonpos fun b hb => h b (List.mem_append_left rest hb)
    have hrest := sum_nonpos fun b hb => h b (List.mem_append_right front hb)
    omega

theorem isSteady_of_fits
    (h : ∀ front, front <+: buckets → -2 ^ 63 ≤ sum front ∧ sum front < 2 ^ 63) :
    IsSteady buckets := fun front hfront => by
  have hfits := h front hfront
  omega

/-- **Steady buckets** have the number nearest to their sum as their total. -/
theorem total_of_isSteady (h : IsSteady buckets) : total default buckets = clamp (sum buckets) := by
  have hzero : (default : Bucket).value = 0 := rfl
  have hends : ∀ rest, rest <:+ buckets → min (-2 ^ 63) (sum buckets) ≤ sum buckets - sum rest ∧
      sum buckets - sum rest ≤ max (2 ^ 63 - 1) (sum buckets) := by
    rintro rest ⟨front, rfl⟩
    have hfront := h front (List.prefix_append ..)
    rw [sum_append] at hfront ⊢
    omega
  have hlow := (total default buckets).least_le
  have hhigh := (total default buckets).value_lt
  refine ext_value (le_antisymm ?_ ?_)
  · -- Nothing has to be shown where the sum passes the upper bound.
    by_cases hfits : sum buckets < 2 ^ 63
    · refine total_le ?_ fun rest hrest => ?_
      · rw [value_clamp, hzero]
        omega
      · have hend := hends rest hrest
        rw [value_clamp]
        omega
    · rw [value_clamp]
      omega
  · by_cases hfits : -2 ^ 63 ≤ sum buckets
    · refine le_total ?_ fun rest hrest => ?_
      · rw [value_clamp, hzero]
        omega
      · have hend := hends rest hrest
        rw [value_clamp]
        omega
    · rw [value_clamp]
      omega

end Bucket

namespace Record

open Bucket (clamp least greatest sum total)

/-- **The grand total is the exact sum as far as it is not held on the way.**  In general it is
the exact sum held between the totals begun at the two bounds, and so the number nearest to the
sum exactly if that number lies between them.  It is the nearest number if no sum on the way
passes a bound by more than the whole sum does, and in any order if no two buckets have opposite
signs; a summary gives the exact sum if all sums on the way fit. -/
theorem profileTotal_is_held_sum (r : Record) :
    r.profileTotal.value = max (total least r.timeProfiles).value
      (min (total greatest r.timeProfiles).value (sum r.timeProfiles)) ∧
    (r.profileTotal = clamp (sum r.timeProfiles) ↔
      (total least r.timeProfiles).value ≤ (clamp (sum r.timeProfiles)).value ∧
        (clamp (sum r.timeProfiles)).value ≤ (total greatest r.timeProfiles).value) ∧
    (Bucket.IsSteady r.timeProfiles → r.profileTotal = clamp (sum r.timeProfiles)) ∧
    (Bucket.IsOneSided r.timeProfiles → ∀ r' : Record, r'.timeProfiles.Perm r.timeProfiles →
      r'.profileTotal = clamp (sum r.timeProfiles)) ∧
    ∀ (group : GroupName) (files : Nat),
      (∀ front, front <+: r.timeProfiles → -2 ^ 63 ≤ sum front ∧ sum front < 2 ^ 63) →
      (GroupSummary.ofRecord group files r).profileTotal.value = sum r.timeProfiles := by
  have hvalue : r.profileTotal.value = max (total least r.timeProfiles).value
      (min (total greatest r.timeProfiles).value (sum r.timeProfiles)) := by
    have h := Bucket.total_value default r.timeProfiles
    rwa [show (default : Bucket).value = 0 from rfl, Int.zero_add] at h
  refine ⟨hvalue, ⟨fun h => ?_, fun h => ?_⟩, Bucket.total_of_isSteady, fun h r' hperm => ?_,
    fun group files hfits => ?_⟩
  · have hordered := Bucket.total_value greatest r.timeProfiles
    rw [← h]
    omega
  · have hlow := (total least r.timeProfiles).least_le
    have hhigh := (total greatest r.timeProfiles).value_lt
    refine Bucket.ext_value ?_
    rw [hvalue]
    rw [Bucket.value_clamp] at h ⊢
    omega
  · rw [← Bucket.sum_perm hperm]
    exact Bucket.total_of_isSteady (h.perm hperm).isSteady
  · have hwhole := hfits r.timeProfiles List.prefix_rfl
    have htotal : r.profileTotal = clamp (sum r.timeProfiles) :=
      Bucket.total_of_isSteady (Bucket.isSteady_of_fits hfits)
    show r.profileTotal.value = _
    rw [htotal, Bucket.value_clamp]
    omega

/-- **A sum that fits may be missed.**  What the second bucket adds to the greatest number is
lost, and what the third takes away is not; in another order the total is the sum. -/
theorem profileTotal_misses_sum :
    let one : Bucket := ⟨1, by decide, by decide⟩
    let back : Bucket := ⟨-1, by decide, by decide⟩
    let r : Record := ⟨[greatest, one, back], [], []⟩
    let r' : Record := ⟨[greatest, back, one], [], []⟩
    let g : GroupName := ⟨"web", by simp [isUsableName]⟩
    sum r.timeProfiles = 2 ^ 63 - 1 ∧ r.profileTotal.value = 2 ^ 63 - 2 ∧
      (GroupSummary.ofRecord g 1 r).profileTotal.value = 2 ^ 63 - 2 ∧
      r'.timeProfiles.Perm r.timeProfiles ∧ r'.profileTotal.value = 2 ^ 63 - 1 := by
  decide +kernel

end Record
end Rollup
