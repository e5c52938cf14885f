/-
# Rounding, sums and quotients of doubles

One rounding serves reading, adding and dividing: `nearest num den` is the
magnitude closest to `num / den`, a ratio counted in units of `2 ^ -1074`, a tie
going to the even one, and infinity from half a step past the greatest finite
double on.  Above `2 ^ 53` units the doubles lie `2 ^ e` units apart, so the ratio
is divided by that step, rounded to a whole number of steps and encoded; the
carry into the next power of two needs no case of its own, because the
magnitudes go on without a gap there.

Sums run from the left and start at negative zero, the neutral element of
addition, so a sum of negative zeros is negative zero.
-/

import Rollup.Binary64.Basic

namespace Rollup
namespace Binary64

/-- `n / d` rounded to a whole number, a tie to the even neighbour. -/
def halfEven (n d : Nat) : Nat :=
  if 2 * (n % d) < d || (2 * (n % d) == d && n / d % 2 == 0) then n / d else n / d + 1

/-- The magnitude nearest to `num / den` units. -/
def nearest (num den : Nat) : Nat :=
  let e := (num / den).log2 - 52
  min (e * 2 ^ 52 + halfEven num (den * 2 ^ e)) infinite

theorem nearest_le (num den : Nat) : nearest num den ≤ infinite := Nat.min_le_right ..

/-- The double nearest to `num / den` units, with the given sign. -/
def round (negative : Bool) (num den : Nat) : Binary64 :=
  ⟨negative, nearest num den, Nat.lt_of_le_of_lt (nearest_le num den) (by decide)⟩

/-- The sum, rounded once. -/
def add (x y : Binary64) : Binary64 :=
  if x.isNaN || y.isNaN then nan
  else if !x.isFinite then if !y.isFinite && x.negative != y.negative then nan else x
  else if !y.isFinite then y
  else
    let s := x.scaled + y.scaled
    if s = 0 then zero (x.negative && y.negative) else round (s < 0) s.natAbs 1

/-- The quotient by a positive whole number, rounded once. -/
def divNat (x : Binary64) (n : Nat) : Binary64 :=
  if x.isFinite then round x.negative x.units n else x

/-- The sum from the left. -/
def sum (xs : List Binary64) : Binary64 := xs.foldl add (zero true)

/-- The arithmetic mean; an empty list has none. -/
def mean? (xs : List Binary64) : Option Binary64 :=
  if xs.isEmpty then none else some ((sum xs).divNat xs.length)

/-- The ascending rearrangement in the total order. -/
def sort (xs : List Binary64) : List Binary64 := xs.mergeSort le

theorem sort_perm (xs : List Binary64) : (sort xs).Perm xs := List.mergeSort_perm xs le

theorem sort_pairwise (xs : List Binary64) : (sort xs).Pairwise (fun x y => x.le y) :=
  @List.pairwise_mergeSort _ le (fun _ _ _ => le_trans) le_total xs

end Binary64
end Rollup
