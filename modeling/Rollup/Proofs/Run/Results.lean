/-
# The order of results, and their counts

A report lists results in the order of their file names, and results of one name in the order
in which they came.  Sorting only looks at the names, so it goes together with changing the
rest of each result (`map_sortResults`) and, since it is stable, with choosing among the
results (`filter_sortResults`).  The counts of a report make up its total, and they tell whether
there were problems (`Report.total_eq`, `Report.hasProblems_iff`).
-/

import Rollup.Aggregator
import Rollup.Proofs.Ordered

namespace Rollup

namespace Aggregator

/-- Sorting looks at the names of files only. -/
theorem map_sortResults (f : FileResult → FileResult) (hf : ∀ r, (f r).file = r.file)
    (results : List FileResult) : (sortResults results).map f = sortResults (results.map f) :=
  List.map_mergeSort fun r _ s _ => by rw [hf, hf]

theorem perm_sortResults (results : List FileResult) : (sortResults results).Perm results :=
  List.mergeSort_perm _ _

theorem isLE_total (f f' : String) :
    ((Utf8.compareText f f').isLE || (Utf8.compareText f' f).isLE) = true := by
  rw [@Std.OrientedCmp.eq_swap _ Utf8.compareText _ f' f]
  cases Utf8.compareText f f' <;> rfl

theorem ascending_sortResults (results : List FileResult) :
    (sortResults results).Pairwise fun r s => (Utf8.compareText r.file s.file).isLE = true :=
  List.pairwise_mergeSort (fun _ _ _ => Std.TransCmp.isLE_trans) (fun _ _ => isLE_total _ _) results

/-- **Choosing among results leaves their order.** -/
theorem filter_sortResults (p : FileResult → Bool) (results : List FileResult) :
    (sortResults results).filter p = sortResults (results.filter p) :=
  filter_mergeSort (fun _ _ _ => Std.TransCmp.isLE_trans) (fun _ _ => isLE_total _ _) p results

/-- Results in ascending order need not be sorted. -/
theorem sortResults_of_ascending {results : List FileResult}
    (h : (results.map FileResult.file).Pairwise fun f f' => Utf8.compareText f f' = .lt) :
    sortResults results = results := by
  refine List.mergeSort_of_pairwise ((List.pairwise_map.1 h).imp fun hlt => ?_)
  rw [hlt]
  rfl

end Aggregator

/-! ### Counts -/

namespace Report

variable {r : Report}

/-- **Each file is counted once.** -/
theorem total_eq (r : Report) : r.total = r.merged + r.planned + r.skipped + r.failed := by
  unfold total merged planned skipped failed countOf
  induction r.files with
  | nil => rfl
  | cons file rest ih =>
    simp only [List.length_cons, List.countP_cons, ih]
    cases file.outcome <;>
      simp [Outcome.isMerged, Outcome.isPlanned, Outcome.isSkipped, Outcome.isFailed] <;> omega

theorem countOf_eq_zero {p : Outcome → Bool} (h : ∀ file ∈ r.files, p file.outcome = false) :
    r.countOf p = 0 :=
  List.countP_eq_zero.2 fun file hfile => Bool.eq_false_iff.1 (h file hfile)

/-- There are problems if some entry was left where it is. -/
theorem hasProblems_iff : r.hasProblems = true ↔
    ∃ f ∈ r.files, f.outcome.isSkipped = true ∨ f.outcome.isFailed = true := by
  simp only [hasProblems, skipped, failed, countOf, Bool.or_eq_true, decide_eq_true_eq,
    List.countP_pos_iff, and_or_left, exists_or]

end Report
end Rollup
