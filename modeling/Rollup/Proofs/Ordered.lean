/-
# Ordered lists

A strictly ascending list is determined by its members (`eq_of_ascending`), and sorting keeps
the order of what it does not tell apart, so choosing before sorting and after it is the same
(`filter_mergeSort`).
-/

import Mathlib.Data.List.Sort
import Std.Data.TreeMap

namespace Rollup

variable {α κ : Type}

/-- **Ascending lists with the same members are equal**, if they ascend by a key. -/
theorem eq_of_ascending {cmp : κ → κ → Ordering} [Std.TransCmp cmp] (key : α → κ) {xs ys : List α}
    (hxs : xs.Pairwise fun x y => cmp (key x) (key y) = .lt)
    (hys : ys.Pairwise fun x y => cmp (key x) (key y) = .lt) (hmem : ∀ x, x ∈ xs ↔ x ∈ ys) :
    xs = ys := by
  have : Std.Irrefl fun x y => cmp (key x) (key y) = .lt := ⟨fun x hlt => by
    rw [@Std.ReflCmp.compare_self κ cmp _ (key x)] at hlt
    cases hlt⟩
  have : Std.Antisymm fun x y => cmp (key x) (key y) = .lt := ⟨fun x y hlt hgt => by
    rw [@Std.OrientedCmp.eq_swap κ cmp _ (key x) (key y), hgt] at hlt
    cases hlt⟩
  exact hxs.eq_of_mem_iff hys hmem

/-! ### Sorting -/

variable {le : α → α → Bool} {as bs cs ds : List α}

/-- Where two lists are divided by one property, they are divided at one place. -/
theorem append_inj_of_divided {q : α → Bool} (h : as ++ bs = cs ++ ds) (has : ∀ x ∈ as, q x = true)
    (hcs : ∀ x ∈ cs, q x = true) (hbs : ∀ x ∈ bs, q x = false) (hds : ∀ x ∈ ds, q x = false) :
    as = cs ∧ bs = ds := by
  have hfilter : ∀ xs ys : List α, (∀ x ∈ xs, q x = true) → (∀ y ∈ ys, q y = false) →
      (xs ++ ys).filter q = xs := by
    intro xs ys hxs hys
    have hnone : ys.filter q = [] := List.filter_eq_nil_iff.2 fun y hy => by simp [hys y hy]
    rw [List.filter_append, List.filter_eq_self.2 hxs, hnone, List.append_nil]
  obtain rfl : as = cs := by rw [← hfilter as bs has hbs, h, hfilter cs ds hcs hds]
  exact ⟨rfl, List.append_cancel_left h⟩

/-- **Sorting is stable**, so choosing before sorting and after it is the same. -/
theorem filter_mergeSort (htrans : ∀ a b c, le a b = true → le b c = true → le a c = true)
    (htotal : ∀ a b, (le a b || le b a) = true) (p : α → Bool) (l : List α) :
    (l.mergeSort le).filter p = (l.filter p).mergeSort le := by
  induction l with
  | nil => simp
  | cons a l ih =>
    obtain ⟨l₁, l₂, hall, hrest, hbefore⟩ := List.mergeSort_cons htrans htotal a l
    rw [hrest, List.filter_append] at ih
    rw [hall, List.filter_append]
    cases hp : p a with
    | false =>
      rw [List.filter_cons_of_neg (by simp [hp]), List.filter_cons_of_neg (by simp [hp]), ih]
    | true =>
      rw [List.filter_cons_of_pos hp, List.filter_cons_of_pos hp]
      obtain ⟨m₁, m₂, hall', hrest', hbefore'⟩ := List.mergeSort_cons htrans htotal a (l.filter p)
      have hafter : ∀ before after : List α, ∀ xs : List α,
          (a :: xs).mergeSort le = before ++ a :: after → ∀ x ∈ after, le a x = true := by
        intro before after xs hsplit
        have hsorted := List.pairwise_mergeSort htrans htotal (a :: xs)
        rw [hsplit, List.pairwise_append, List.pairwise_cons] at hsorted
        exact hsorted.2.1.1
      -- What is not greater than `a` stands before it, on both sides.
      obtain ⟨rfl, rfl⟩ := append_inj_of_divided (q := fun x => !le a x) (ih.trans hrest')
        (fun x hx => hbefore x (List.mem_filter.1 hx).1) hbefore'
        (fun x hx => by simp [hafter l₁ l₂ l hall x (List.mem_filter.1 hx).1])
        fun x hx => by simp [hafter m₁ m₂ _ hall' x hx]
      exact hall'.symm

end Rollup
