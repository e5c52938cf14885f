/-
# The decimal written for a double reads as the double

Rounding looks at a ratio alone (`nearest_mul_right`), so a decimal number keeps
its double when zeros are added to its digits (`toBinary64_mul_pow`).  A finite
double counted in units is a whole number of steps of its own binade, hence its
own nearest double (`nearest_units`).  The full decimal expansion therefore reads
as the double (`readsAs_exact`), and so does the shortest decimal, whether the
search finds one or falls back on the expansion (`readsAs_shortest`).
-/

import Rollup.Decimal.Shortest

namespace Rollup

namespace Binary64

variable {n d c : Nat}

theorem halfEven_mul_right (hc : 0 < c) : halfEven (n * c) (d * c) = halfEven n d := by
  have hlt : 2 * (n % d * c) < d * c ↔ 2 * (n % d) < d := by
    rw [← Nat.mul_assoc, Nat.mul_lt_mul_right hc]
  have heq : 2 * (n % d * c) = d * c ↔ 2 * (n % d) = d := by
    rw [← Nat.mul_assoc, Nat.mul_left_inj (Nat.ne_of_gt hc)]
  unfold halfEven
  rw [Nat.mul_mod_mul_right, Nat.mul_div_mul_right _ _ hc]
  simp only [hlt, heq, beq_iff_eq, Bool.or_eq_true, Bool.and_eq_true, decide_eq_true_eq]

theorem nearest_eq (n d : Nat) :
    nearest n d = min (((n / d).log2 - 52) * 2 ^ 52 + halfEven n (d * 2 ^ ((n / d).log2 - 52)))
      infinite := rfl

/-- **Rounding looks at the ratio alone.** -/
theorem nearest_mul_right (hc : 0 < c) : nearest (n * c) (d * c) = nearest n d := by
  rw [nearest_eq, Nat.mul_div_mul_right _ _ hc, Nat.mul_right_comm d c, halfEven_mul_right hc,
    ← nearest_eq]

theorem round_mul_right (negative : Bool) (hc : 0 < c) :
    round negative (n * c) (d * c) = round negative n d := by
  simp only [round, nearest_mul_right hc]

theorem round_mul_cancel (negative : Bool) (hc : 0 < c) :
    round negative (n * c) c = round negative n 1 := by
  simpa using round_mul_right (n := n) (d := 1) negative hc

/-- A whole number of steps is not rounded. -/
theorem halfEven_mul_self (hd : 0 < d) : halfEven (n * d) d = n := by
  simp [halfEven, Nat.mul_div_cancel n hd, hd]

/-- The units of a normal magnitude have their leading bit at the place that its
exponent field says. -/
theorem log2_unitsOf {m : Nat} (normal : 2 ^ 52 ≤ m) : (unitsOf m).log2 = m / 2 ^ 52 + 51 := by
  have hfrac : m % 2 ^ 52 < 2 ^ 52 := Nat.mod_lt _ (by decide)
  have hfield : 1 ≤ m / 2 ^ 52 := (Nat.one_le_div_iff (by decide)).2 normal
  have hpos : 0 < 2 ^ (m / 2 ^ 52 - 1) := Nat.two_pow_pos _
  have hlow : 2 ^ 52 * 2 ^ (m / 2 ^ 52 - 1) = 2 ^ (m / 2 ^ 52 + 51) := by
    rw [← Nat.pow_add]; congr 1; omega
  have hhigh : 2 ^ 53 * 2 ^ (m / 2 ^ 52 - 1) = 2 ^ (m / 2 ^ 52 + 51 + 1) := by
    rw [← Nat.pow_add]; congr 1; omega
  have hunits : unitsOf m = (2 ^ 52 + m % 2 ^ 52) * 2 ^ (m / 2 ^ 52 - 1) := by
    rw [unitsOf, if_neg (Nat.not_lt.2 normal)]
  rw [hunits, Nat.log2_eq_iff (Nat.ne_of_gt (Nat.mul_pos (by omega) hpos)), ← hlow, ← hhigh]
  exact ⟨Nat.mul_le_mul_right _ (by omega), Nat.mul_lt_mul_of_pos_right (by omega) hpos⟩

/-- **A finite double is the nearest to its own value.** -/
theorem nearest_units {x : Binary64} (hx : x.isFinite) : nearest x.units 1 = x.magnitude := by
  have hfin : x.magnitude ≤ infinite := Nat.le_of_lt (by simpa [isFinite] using hx)
  rw [nearest_eq, Nat.div_one, Nat.one_mul, units]
  by_cases normal : 2 ^ 52 ≤ x.magnitude
  · have hfield : 1 ≤ x.magnitude / 2 ^ 52 := (Nat.one_le_div_iff (by decide)).2 normal
    have hstep : x.magnitude / 2 ^ 52 + 51 - 52 = x.magnitude / 2 ^ 52 - 1 := by omega
    have hunits : unitsOf x.magnitude =
        (2 ^ 52 + x.magnitude % 2 ^ 52) * 2 ^ (x.magnitude / 2 ^ 52 - 1) := by
      rw [unitsOf, if_neg (Nat.not_lt.2 normal)]
    rw [log2_unitsOf normal, hstep, hunits, halfEven_mul_self (Nat.two_pow_pos _)]
    omega
  · have hsmall : x.magnitude < 2 ^ 52 := Nat.lt_of_not_le normal
    have hunits : unitsOf x.magnitude = x.magnitude := by rw [unitsOf, if_pos hsmall]
    have hlog : x.magnitude.log2 - 52 = 0 := by
      by_cases hzero : x.magnitude = 0
      · rw [hzero, Nat.log2_zero]
      · have := (Nat.log2_lt hzero).2 hsmall
        omega
    have hhalf : halfEven x.magnitude 1 = x.magnitude := by
      simpa using halfEven_mul_self (n := x.magnitude) (d := 1) (by decide)
    rw [hunits, hlog, Nat.pow_zero, hhalf]
    omega

/-- A finite double has 53 bits, at most 2045 places up. -/
theorem units_lt {x : Binary64} (hx : x.isFinite) : x.units < 2 ^ 53 * 2 ^ 2045 := by
  have hfin : x.magnitude < infinite := by simpa [isFinite] using hx
  unfold units unitsOf
  split
  · rename_i hsmall
    calc x.magnitude < 2 ^ 53 := by omega
      _ ≤ 2 ^ 53 * 2 ^ 2045 := Nat.le_mul_of_pos_right _ (Nat.two_pow_pos 2045)
  · have hfrac : x.magnitude % 2 ^ 52 < 2 ^ 52 := Nat.mod_lt _ (by decide)
    have hfield : x.magnitude / 2 ^ 52 - 1 ≤ 2045 := by
      have : x.magnitude / 2 ^ 52 < 0x7FF := (Nat.div_lt_iff_lt_mul (by decide)).2 hfin
      omega
    calc (2 ^ 52 + x.magnitude % 2 ^ 52) * 2 ^ (x.magnitude / 2 ^ 52 - 1)
        < 2 ^ 53 * 2 ^ (x.magnitude / 2 ^ 52 - 1) :=
          Nat.mul_lt_mul_of_pos_right (by omega) (Nat.two_pow_pos _)
      _ ≤ 2 ^ 53 * 2 ^ 2045 :=
          Nat.mul_le_mul_left _ (Nat.pow_le_pow_right (by decide) hfield)

end Binary64

namespace Decimal

theorem length_le_iff {n k : Nat} (hk : 0 < k) : length n ≤ k ↔ n < 10 ^ k :=
  Nat.length_toDigits_le_iff (by decide) hk

theorem length_pos (n : Nat) : 0 < length n := Nat.length_toDigits_pos

/-- Zeros behind the digits of a number count as digits. -/
theorem length_mul_pow {n : Nat} (hn : 0 < n) (k : Nat) : length (n * 10 ^ k) = length n + k := by
  have hpow : 0 < 10 ^ k := Nat.pow_pos (by decide)
  have hupper : length (n * 10 ^ k) ≤ length n + k := by
    rw [length_le_iff (by have := length_pos n; omega), Nat.pow_add]
    exact Nat.mul_lt_mul_of_pos_right ((length_le_iff (length_pos n)).1 (Nat.le_refl _)) hpow
  have hlower : length n + k ≤ length (n * 10 ^ k) := by
    by_cases hone : length n = 1
    · have hge : ¬n * 10 ^ k < 10 ^ k := Nat.not_lt.2 (Nat.le_mul_of_pos_left _ hn)
      rcases Nat.eq_zero_or_pos k with rfl | hk
      · have := length_pos (n * 10 ^ 0); omega
      · have := mt (length_le_iff hk).1 hge; omega
    · have hpred : 0 < length n - 1 := by have := length_pos n; omega
      have hge : 10 ^ (length n - 1) ≤ n := by
        refine Nat.not_lt.1 fun hlt => ?_
        have := (length_le_iff hpred).2 hlt
        omega
      have hmul : ¬n * 10 ^ k < 10 ^ (length n - 1 + k) := by
        rw [Nat.pow_add]
        exact Nat.not_lt.2 (Nat.mul_le_mul_right _ hge)
      have := mt (length_le_iff (by omega)).1 hmul
      omega
  omega

/-- **Zeros behind the digits do not change the double.** -/
theorem toBinary64_mul_pow (negative : Bool) (digits k : Nat) (e : Int) :
    toBinary64 negative (digits * 10 ^ k) (e - k) = toBinary64 negative digits e := by
  rcases Nat.eq_zero_or_pos digits with rfl | hd
  · simp [toBinary64]
  have hpow : 0 < 10 ^ k := Nat.pow_pos (by decide)
  have hmul : digits * 10 ^ k ≠ 0 := Nat.ne_of_gt (Nat.mul_pos hd hpow)
  have hplaces : e - k + length (digits * 10 ^ k) = e + length digits := by
    rw [length_mul_pow hd]; omega
  unfold toBinary64
  simp only [hmul, Nat.ne_of_gt hd, hplaces, if_false]
  split
  · rfl
  split
  · rfl
  by_cases he : e < 0
  · have hk : e - k < 0 := by omega
    have habs : (e - k).natAbs = e.natAbs + k := by omega
    rw [if_pos hk, if_pos he, habs, Nat.pow_add, Nat.mul_right_comm,
      Binary64.round_mul_right negative hpow]
  · rw [if_neg he]
    by_cases hk : e - k < 0
    · have habs : k = e.natAbs + (e - k).natAbs := by omega
      have hnum : digits * 10 ^ k * 2 ^ 1074 =
          digits * 2 ^ 1074 * 10 ^ e.natAbs * 10 ^ (e - k).natAbs := by
        rw [Nat.mul_assoc _ (10 ^ e.natAbs), ← Nat.pow_add, ← habs, Nat.mul_right_comm]
      rw [if_pos hk, hnum, Binary64.round_mul_cancel negative (Nat.pow_pos (by decide))]
    · have habs : e.natAbs = k + (e - k).natAbs := by omega
      rw [if_neg hk, habs, Nat.pow_add, ← Nat.mul_assoc, Nat.mul_right_comm digits]

/-- **The decimal expansion reads as the double.** -/
theorem readsAs_exact {x : Binary64} (hx : x.isFinite) (nonzero : x.units ≠ 0) :
    (exact x).readsAs x := by
  have hfive : ∀ k, 0 < 5 ^ k := fun _ => Nat.pow_pos (by decide)
  have hpow : ∀ k, 0 < 10 ^ k := fun _ => Nat.pow_pos (by decide)
  have hdigits : x.units * 5 ^ 1074 ≠ 0 := Nat.mul_ne_zero nonzero (Nat.ne_of_gt (hfive 1074))
  have hupper : length (x.units * 5 ^ 1074) ≤ 1383 := by
    rw [length_le_iff (by decide)]
    calc x.units * 5 ^ 1074 < 2 ^ 53 * 2 ^ 2045 * 5 ^ 1074 :=
          Nat.mul_lt_mul_of_pos_right (Binary64.units_lt hx) (hfive 1074)
      _ ≤ 10 ^ 1383 := by decide +kernel
  have hlower : 750 < length (x.units * 5 ^ 1074) := by
    refine Nat.not_le.1 fun h => ?_
    have hlt := (length_le_iff (by decide)).1 h
    have hge : 5 ^ 1074 ≤ x.units * 5 ^ 1074 := Nat.le_mul_of_pos_left _ (by omega)
    exact absurd (Nat.lt_of_le_of_lt hge hlt) (by decide +kernel)
  have hten : ∀ k, x.units * 5 ^ k * 2 ^ k = x.units * 10 ^ k := fun k => by
    rw [Nat.mul_assoc, ← Nat.mul_pow]
  have hround : toBinary64 x.negative (x.units * 5 ^ 1074) (-1074) =
      Binary64.round x.negative x.units 1 := by
    unfold toBinary64
    rw [if_neg hdigits, if_neg (by omega), if_neg (by omega), if_pos (by decide), hten 1074]
    exact Binary64.round_mul_cancel x.negative (hpow 1074)
  rw [Scientific.readsAs, exact, beq_iff_eq, hround]
  simp [Binary64.round, Binary64.nearest_units hx]

/-- **The shortest decimal reads as the double.** -/
theorem readsAs_shortest (tie : Tie) {x : Binary64} (hx : x.isFinite) (nonzero : x.units ≠ 0) :
    (shortest tie x).readsAs x := by
  unfold shortest
  cases h : (List.range' 1 17).findSome? (withDigits? tie x) with
  | none => exact readsAs_exact hx nonzero
  | some s =>
    obtain ⟨n, -, hn⟩ := List.exists_of_findSome?_eq_some h
    exact readsAs_of_withDigits? hn

end Decimal
end Rollup
