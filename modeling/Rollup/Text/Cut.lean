/-
# Cutting at marks

`cut p` divides a list at the elements that satisfy `p`, which belong to no part.
There is always one part more than there are marks.
-/

namespace Rollup
namespace Text

/-- The parts of a list between the elements that satisfy `p`. -/
def cut {α : Type} (p : α → Bool) : List α → List (List α)
  | [] => [[]]
  | a :: as =>
    if p a then [] :: cut p as
    else match cut p as with
      | [] => [[a]]
      | part :: parts => (a :: part) :: parts

theorem cut_ne_nil {α : Type} (p : α → Bool) (as : List α) : cut p as ≠ [] := by
  cases as with
  | nil => simp [cut]
  | cons a as =>
    rw [cut]
    split
    · simp
    · split <;> simp

/-- A list without marks is one part. -/
theorem cut_eq_singleton {α : Type} {p : α → Bool} {as : List α} (h : ∀ a ∈ as, p a = false) :
    cut p as = [as] := by
  induction as with
  | nil => rfl
  | cons a as ih =>
    have ha := h a (by simp)
    rw [cut, ih fun b hb => h b (by simp [hb]), ha]
    rfl

/-- The part before a mark is the first part. -/
theorem cut_append_cons {α : Type} {p : α → Bool} {as : List α} {m : α} (bs : List α)
    (h : ∀ a ∈ as, p a = false) (hm : p m = true) :
    cut p (as ++ m :: bs) = as :: cut p bs := by
  induction as with
  | nil => simp [cut, hm]
  | cons a as ih =>
    have ha := h a (by simp)
    rw [List.cons_append, cut, ih fun b hb => h b (by simp [hb]), ha]
    rfl

/-- Before and after a mark a list is cut on its own. -/
theorem cut_append_mark {α : Type} {p : α → Bool} {m : α} (as bs : List α) (hm : p m = true) :
    cut p (as ++ m :: bs) = cut p as ++ cut p bs := by
  induction as with
  | nil => simp [cut, hm]
  | cons a as ih =>
    rw [List.cons_append, cut, cut, ih]
    cases hcut : cut p as with
    | nil => exact absurd hcut (cut_ne_nil p as)
    | cons part parts => cases p a <;> rfl

/-- Marks belong to no part. -/
theorem eq_false_of_mem_cut {α : Type} {p : α → Bool} {as part : List α} (h : part ∈ cut p as) :
    ∀ a ∈ part, p a = false := by
  induction as generalizing part with
  | nil =>
    obtain rfl := List.mem_singleton.1 h
    exact fun _ ha => absurd ha List.not_mem_nil
  | cons a as ih =>
    rw [cut] at h
    cases hp : p a with
    | true =>
      rw [hp, if_pos rfl] at h
      rcases List.mem_cons.1 h with rfl | h
      · exact fun _ ha => absurd ha List.not_mem_nil
      · exact ih h
    | false =>
      rw [hp, if_neg Bool.false_ne_true] at h
      cases hcut : cut p as with
      | nil => exact absurd hcut (cut_ne_nil p as)
      | cons first parts =>
        rw [hcut] at h ih
        rcases List.mem_cons.1 h with rfl | h
        · intro b hb
          rcases List.mem_cons.1 hb with rfl | hb
          · exact hp
          · exact ih (List.mem_cons_self ..) b hb
        · exact ih (List.mem_cons_of_mem _ h)

end Text
end Rollup
