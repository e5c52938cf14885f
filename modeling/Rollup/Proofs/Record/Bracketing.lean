/-
# Merging in any order and any bracketing

Merging is commutative (`merge_comm`) and, as far as every sum fits, associative: a
bracketing of records that fits gives the total of its records
(`Bracketing.isTotal_of_merged`), and a total does not depend on how it came about.  A fold
is the bracketing from the left (`Bracketing.merged_fromLeft`).

Whether every sum fits does depend on the order, because negative buckets may bring a sum
back into the range that would leave it otherwise.  If no bucket is negative, sums only grow,
and so everything fits exactly if the sums over all records do
(`Bracketing.exists_merged_iff`).
-/

import Mathlib.Algebra.Order.BigOperators.Group.List
import Mathlib.Algebra.Order.Ring.Int
import Rollup.Proofs.Record.Fold

namespace Rollup

/-- The same place, with the two buckets exchanged. -/
def MergeError.swap (e : MergeError) : MergeError := ⟨e.index, e.incoming, e.existing⟩

namespace Record

/-! ### Merging the other way round -/

section Swap

variable {xs ys sums : List Bucket} {x y : Bucket} {k : Nat} {a b m : Record}

theorem IsSum.symm (h : IsSum xs ys sums) : IsSum ys xs sums where
  length := by rw [h.length, Nat.max_comm]
  both k y x hy hx := by
    obtain ⟨s, hs, hvalue⟩ := h.both k x y hx hy
    exact ⟨s, hs, by rw [hvalue, Int.add_comm]⟩
  kept := h.added
  added := h.kept

theorem OverflowsAt.symm (h : OverflowsAt xs ys k x y) : OverflowsAt ys xs k y x :=
  ⟨h.added, h.held, by rw [Int.add_comm]; exact h.unfit⟩

theorem IsFirstOverflow.symm (h : IsFirstOverflow xs ys k x y) : IsFirstOverflow ys xs k y x :=
  ⟨h.toOverflowsAt.symm, fun j hj x' y' hover => h.first j hj y' x' hover.symm⟩

theorem IsMerge.symm (h : IsMerge a b m) : IsMerge b a m :=
  ⟨h.timeProfiles.symm, fun row => (h.gathered row).trans List.perm_append_comm, h.ascending⟩

/-- **Merging is commutative**: the other way round it gives the same record, or overflows at
the same place. -/
theorem merge_comm (a b : Record) : a.merge b = (b.merge a).mapError MergeError.swap := by
  cases h : b.merge a with
  | ok m => exact merge_eq_ok_iff_isMerge.2 (merge_eq_ok_iff_isMerge.1 h).symm
  | error e => exact merge_eq_error_iff.2 (merge_eq_error_iff.1 h).symm

end Swap

/-! ### Sums that fit -/

theorem bucketAt_bounds (p : List Bucket) (k : Nat) : -2 ^ 63 ≤ bucketAt p k ∧ bucketAt p k < 2 ^ 63 := by
  unfold bucketAt
  cases p[k]? with
  | none => decide
  | some b => exact ⟨b.least_le, b.value_lt⟩

/-- A merge is possible if the sums of all buckets fit. -/
theorem exists_merge_of_fits {a b : Record}
    (h : ∀ k, -2 ^ 63 ≤ bucketAt a.timeProfiles k + bucketAt b.timeProfiles k ∧
      bucketAt a.timeProfiles k + bucketAt b.timeProfiles k < 2 ^ 63) :
    ∃ m, a.merge b = .ok m := by
  refine exists_merge_iff.2 fun k x y hover => hover.unfit ?_
  have hx : bucketAt a.timeProfiles k = x.value := by simp [bucketAt, hover.held]
  have hy : bucketAt b.timeProfiles k = y.value := by simp [bucketAt, hover.added]
  rw [← hx, ← hy]
  exact h k

/-- No bucket is negative. -/
def IsNonnegative (r : Record) : Prop := ∀ b ∈ r.timeProfiles, 0 ≤ b.value

theorem IsNonnegative.bucketAt {r : Record} (h : r.IsNonnegative) (k : Nat) :
    0 ≤ bucketAt r.timeProfiles k := by
  unfold Record.bucketAt
  cases hk : r.timeProfiles[k]? with
  | none => exact Int.le_refl 0
  | some b => exact h b (List.mem_of_getElem? hk)

/-- The sum of the buckets of records at one place. -/
def bucketSum (records : List Record) (k : Nat) : Int :=
  (records.map fun r => bucketAt r.timeProfiles k).sum

theorem bucketSum_append (rs ss : List Record) (k : Nat) :
    bucketSum (rs ++ ss) k = bucketSum rs k + bucketSum ss k := by
  rw [bucketSum, List.map_append, List.sum_append]
  rfl

theorem bucketSum_nonneg {records : List Record} (h : ∀ r ∈ records, r.IsNonnegative) (k : Nat) :
    0 ≤ bucketSum records k := by
  refine List.sum_nonneg fun n hn => ?_
  obtain ⟨r, hr, rfl⟩ := List.mem_map.1 hn
  exact (h r hr).bucketAt k

/-! ### Bracketings -/

/-- Records in an order in which they are merged two at a time. -/
inductive Bracketing where
  | leaf (r : Record)
  | node (left right : Bracketing)

namespace Bracketing

/-- The records from left to right. -/
def records : Bracketing → List Record
  | leaf r => [r]
  | node left right => left.records ++ right.records

/-- Both sides are merged first, and then their results. -/
def merged : Bracketing → Except MergeError Record
  | leaf r => .ok r
  | node left right => do
    let existing ← left.merged
    let incoming ← right.merged
    existing.merge incoming

/-- Records merged one after the other into what a bracketing gives. -/
def fromLeft (t : Bracketing) (records : List Record) : Bracketing :=
  records.foldl (fun t r => node t (leaf r)) t

variable {t t' left right : Bracketing} {x y : Record} {k : Nat}

theorem merged_node_eq_ok_iff : (node left right).merged = .ok x ↔
    ∃ a b, left.merged = .ok a ∧ right.merged = .ok b ∧ a.merge b = .ok x := by
  rw [merged]
  cases left.merged <;> cases right.merged <;> simp [bind, Except.bind]

theorem records_fromLeft (t : Bracketing) (records : List Record) :
    (t.fromLeft records).records = t.records ++ records := by
  induction records generalizing t with
  | nil => exact (List.append_nil _).symm
  | cons r rest ih =>
    rw [fromLeft, List.foldl_cons, ← fromLeft, ih, Bracketing.records, Bracketing.records,
      List.append_assoc]
    rfl

/-- **A fold is the bracketing from the left.** -/
theorem merged_fromLeft (t : Bracketing) (records : List Record) :
    (t.fromLeft records).merged = t.merged >>= fun start => records.foldlM Record.merge start := by
  induction records generalizing t with
  | nil =>
    cases h : t.merged <;> simp [fromLeft, h, bind, Except.bind, pure, Except.pure]
  | cons r rest ih =>
    rw [fromLeft, List.foldl_cons, ← fromLeft, ih, merged, merged]
    simp only [List.foldlM_cons]
    cases t.merged <;> rfl

/-- **What a bracketing gives is the total of its records.** -/
theorem isTotal_of_merged (h : t.merged = .ok x) :
    ∃ first rest, t.records = first :: rest ∧ IsTotal first rest x := by
  induction t generalizing x with
  | leaf r =>
    obtain rfl := Except.ok.inj h
    exact ⟨r, [], rfl, .refl r⟩
  | node left right ihleft ihright =>
    obtain ⟨a, b, hleft, hright, hmerge⟩ := merged_node_eq_ok_iff.1 h
    obtain ⟨first, rest, hfirst, ha⟩ := ihleft hleft
    obtain ⟨first', rest', hfirst', hb⟩ := ihright hright
    refine ⟨first, rest ++ first' :: rest', ?_, ha.merge hb hmerge⟩
    rw [records, hfirst, hfirst']
    rfl

/-- Merged into the empty record, a bracketing gives the total that starts there. -/
theorem isTotal_of_merged_into_empty (h : (node (leaf empty) t).merged = .ok x) :
    IsTotal empty t.records x ∧ t.records ≠ [] := by
  obtain ⟨a, b, ha, hb, hmerge⟩ := merged_node_eq_ok_iff.1 h
  obtain rfl := Except.ok.inj ha
  obtain ⟨first, rest, hrecords, htotal⟩ := isTotal_of_merged hb
  rw [hrecords]
  exact ⟨(IsTotal.refl empty).merge htotal hmerge, by simp⟩

theorem bucketAt_of_merged (h : t.merged = .ok x) (k : Nat) :
    bucketAt x.timeProfiles k = bucketSum t.records k := by
  obtain ⟨first, rest, hrecords, htotal⟩ := isTotal_of_merged h
  rw [hrecords, htotal.bucket, bucketSum, List.map_cons, List.sum_cons]

/-- **Without negative buckets, a bracketing fits if the sums over all its records do.** -/
theorem exists_merged_iff (h : ∀ r ∈ t.records, r.IsNonnegative) :
    (∃ x, t.merged = .ok x) ↔ ∀ k, bucketSum t.records k < 2 ^ 63 := by
  constructor
  · rintro ⟨x, hx⟩ k
    rw [← bucketAt_of_merged hx]
    exact (bucketAt_bounds _ k).2
  · intro hfits
    induction t with
    | leaf r => exact ⟨r, rfl⟩
    | node left right ihleft ihright =>
      simp only [records, List.mem_append, or_imp, forall_and] at h
      simp only [records, bucketSum_append] at hfits
      have hsum := bucketSum_nonneg h.1
      have hsum' := bucketSum_nonneg h.2
      obtain ⟨a, ha⟩ := ihleft h.1 fun k => by have := hfits k; have := hsum' k; omega
      obtain ⟨b, hb⟩ := ihright h.2 fun k => by have := hfits k; have := hsum k; omega
      obtain ⟨m, hm⟩ : ∃ m, a.merge b = .ok m := by
        refine exists_merge_of_fits fun k => ?_
        rw [bucketAt_of_merged ha, bucketAt_of_merged hb]
        have := hfits k
        have := hsum k
        have := hsum' k
        omega
      exact ⟨m, merged_node_eq_ok_iff.2 ⟨a, b, ha, hb, hm⟩⟩

/-- Whether a bracketing fits does not depend on its order then. -/
theorem exists_merged_congr (hperm : t.records.Perm t'.records)
    (h : ∀ r ∈ t.records, r.IsNonnegative) : (∃ x, t.merged = .ok x) ↔ ∃ y, t'.merged = .ok y := by
  have hsum : ∀ k, bucketSum t.records k = bucketSum t'.records k := fun k => (hperm.map _).sum_eq
  rw [exists_merged_iff h, exists_merged_iff fun r hr => h r (hperm.mem_iff.2 hr)]
  simp only [hsum]

end Bracketing

/-- **Merging in any order and any bracketing.**  Folds over the same records agree whenever both
fit, and so does every bracketing that is merged into the empty record.  If no bucket is negative,
then one order or bracketing fits exactly if every other one does.  Two records merged the other
way round give the same record or overflow at the same place, the two buckets exchanged. -/
theorem merging_in_any_order (records : List Record) :
    (∀ records' : List Record, records'.Perm records → ∀ x y, records'.foldlM merge empty = .ok x →
      records.foldlM merge empty = .ok y → x = y) ∧
    (∀ t : Bracketing, t.records.Perm records → ∀ x y, (t.merged >>= empty.merge) = .ok x →
      records.foldlM merge empty = .ok y → x = y) ∧
    ((∀ r ∈ records, r.IsNonnegative) →
      (∀ records' : List Record, records'.Perm records → ((∃ x, records'.foldlM merge empty = .ok x) ↔
        ∃ y, records.foldlM merge empty = .ok y)) ∧
      ∀ t : Bracketing, t.records.Perm records → ((∃ x, (t.merged >>= empty.merge) = .ok x) ↔
        ∃ y, records.foldlM merge empty = .ok y)) ∧
    ∀ a b : Record, a.merge b = (b.merge a).mapError MergeError.swap := by
  -- A fold, and a bracketing merged into the empty record, are bracketings that begin with it.
  have hfold : ∀ rs : List Record,
      rs.foldlM merge empty = ((Bracketing.leaf empty).fromLeft rs).merged := fun rs =>
    (Bracketing.merged_fromLeft (.leaf empty) rs).symm
  have hwhole : ∀ t : Bracketing,
      (t.merged >>= empty.merge) = (Bracketing.node (.leaf empty) t).merged := fun t => rfl
  have hrecords : ∀ rs : List Record,
      ((Bracketing.leaf empty).fromLeft rs).records = empty :: rs :=
    Bracketing.records_fromLeft (.leaf empty)
  refine ⟨fun rs hperm x y hx hy => foldlM_merge_perm hperm hx hy, fun t hperm x y hx hy => ?_,
    fun hnonneg => ?_, merge_comm⟩
  · obtain ⟨htotal, hne⟩ := Bracketing.isTotal_of_merged_into_empty (hwhole t ▸ hx)
    exact htotal.unique hperm hne (isTotal_of_foldlM hy)
  · have hempty : ∀ rs : List Record, rs.Perm records → ∀ r ∈ empty :: rs, r.IsNonnegative := by
      intro rs hperm r hr
      rcases List.mem_cons.1 hr with rfl | hr
      · exact fun b hb => absurd hb List.not_mem_nil
      · exact hnonneg r (hperm.mem_iff.1 hr)
    refine ⟨fun rs hperm => ?_, fun t hperm => ?_⟩
    · rw [hfold, hfold]
      refine Bracketing.exists_merged_congr ?_ ?_
      · rw [hrecords, hrecords]
        exact hperm.cons empty
      · rw [hrecords]
        exact hempty rs hperm
    · rw [hfold, hwhole]
      refine Bracketing.exists_merged_congr ?_ ?_
      · rw [hrecords]
        exact hperm.cons empty
      · exact hempty t.records hperm

/-- The last record first, and the other two before they are merged into it: the zeros of both
signs come in the same order. -/
theorem merging_in_any_order_zeros :
    let a : Record := ⟨[.clamp 1], [.zero false], []⟩
    let b : Record := ⟨[.clamp 2, .clamp 5], [.zero true], []⟩
    let c : Record := ⟨[], [], [.inf true]⟩
    let t : Bracketing := .node (.leaf c) (.node (.leaf b) (.leaf a))
    t.records.Perm [a, b, c] ∧ (∀ r ∈ [a, b, c], r.IsNonnegative) ∧
      [a, b, c].foldlM merge empty =
        .ok ⟨[.clamp 3, .clamp 5], [.zero true, .zero false], [.inf true]⟩ ∧
      (t.merged >>= empty.merge) =
        .ok ⟨[.clamp 3, .clamp 5], [.zero true, .zero false], [.inf true]⟩ := by
  intro a b c t
  have hperm : t.records.Perm [a, b, c] := List.reverse_perm [a, b, c]
  have hnonneg : ∀ r ∈ [a, b, c], r.IsNonnegative := by simp [a, b, c, IsNonnegative, Bucket.clamp]
  let ab : Record := ⟨[.clamp 3, .clamp 5], [.zero true, .zero false], []⟩
  have hfirst : empty.merge a = .ok a := merge_eq_ok_iff.2
    ⟨rfl, eq_mergeSamples_iff.2 (by decide), eq_mergeSamples_iff.2 (by decide)⟩
  have hsecond : a.merge b = .ok ab := merge_eq_ok_iff.2
    ⟨rfl, eq_mergeSamples_iff.2 (by decide), eq_mergeSamples_iff.2 (by decide)⟩
  have hthird : ab.merge c = .ok ⟨[.clamp 3, .clamp 5], [.zero true, .zero false], [.inf true]⟩ :=
    merge_eq_ok_iff.2 ⟨rfl, eq_mergeSamples_iff.2 (by decide), eq_mergeSamples_iff.2 (by decide)⟩
  have hfold : [a, b, c].foldlM merge empty =
      .ok ⟨[.clamp 3, .clamp 5], [.zero true, .zero false], [.inf true]⟩ := by
    simp only [List.foldlM_cons, hfirst, hsecond, hthird, bind, Except.bind]
    rfl
  obtain ⟨-, hsame, hfits, -⟩ := merging_in_any_order [a, b, c]
  obtain ⟨x, hx⟩ := ((hfits hnonneg).2 t hperm).2 ⟨_, hfold⟩
  exact ⟨hperm, hnonneg, hfold, hsame t hperm x _ hx hfold ▸ hx⟩

/-- With a negative bucket the order decides whether every sum fits. -/
example :
    let record (i : Int) : Record := ⟨[.clamp i], [], []⟩
    (∃ e, [record (2 ^ 63 - 1), record 1, record (-1)].foldlM merge empty = .error e) ∧
      ∃ total, [record (2 ^ 63 - 1), record (-1), record 1].foldlM merge empty = .ok total := by
  intro record
  exact ⟨⟨_, rfl⟩, ⟨_, rfl⟩⟩

end Record
end Rollup
