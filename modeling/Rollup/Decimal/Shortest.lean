/-
# The shortest decimal that reads back

A double is written with the fewest digits that still stand for it.  With `n`
digits the candidates are the two neighbours of the value on the grid of
multiples of `10 ^ (place - n)`; the first grid with a candidate that reads back
as the double decides.  Of two such candidates the nearer one is taken, and `Tie`
says which one when the value lies halfway.

Should no grid up to 17 digits have a hit, the exact decimal expansion is
written, so that the result always stands for the double.
-/

import Rollup.Decimal.Real

namespace Rollup
namespace Decimal

/-- Where a number goes that lies halfway between two neighbours. -/
inductive Tie where
  | up
  | even
  deriving DecidableEq, Repr

/-- The upper neighbour `n + 1` of `n + remainder / divisor` is the one to take. -/
def Tie.takesUpper (tie : Tie) (n remainder divisor : Nat) : Bool :=
  divisor < 2 * remainder ||
    (2 * remainder == divisor && match tie with
      | .up => true
      | .even => n % 2 == 1)

/-- The number `digits * 10 ^ exponent`. -/
structure Scientific where
  digits : Nat
  exponent : Int
  deriving DecidableEq, Repr

namespace Scientific

/-- The decimal number reads as the double. -/
def readsAs (s : Scientific) (x : Binary64) : Bool := toBinary64 x.negative s.digits s.exponent == x

/-- The number of digits before the decimal point; zeros behind it count as
negative. -/
def place (s : Scientific) : Int := s.exponent + length s.digits

end Scientific

/-- The least exponent from `e` on whose power of ten exceeds `n`. -/
def powerAbove (e n : Nat) : Nat := if n < 10 ^ e then e else powerAbove (e + 1) n
termination_by n + 1 - 10 ^ e
decreasing_by
  have : 10 ^ e < 10 ^ (e + 1) := Nat.pow_lt_pow_right (by decide) (by omega)
  omega

/-- The place of a positive number of units: `10 ^ (p - 1) ≤ units / 2 ^ 1074 < 10 ^ p`.
The count of binary digits tells where to look for it. -/
def placeOfUnits (units : Nat) : Int :=
  let n := units * 10 ^ 400 / 2 ^ 1074
  (powerAbove (n.log2 * 30102 / 100000) n : Int) - 400

/-- The number of units divided by `10 ^ exponent`, as a fraction. -/
def onGrid (units : Nat) (exponent : Int) : Nat × Nat :=
  if exponent < 0 then (units * 10 ^ exponent.natAbs, 2 ^ 1074)
  else (units, 2 ^ 1074 * 10 ^ exponent.natAbs)

/-- The two neighbours of a double with at most `n` digits, the nearer one first. -/
def neighbours (tie : Tie) (x : Binary64) (n : Nat) : List Scientific :=
  let exponent := placeOfUnits x.units - n
  let (num, den) := onGrid x.units exponent
  let lower : Scientific := ⟨num / den, exponent⟩
  let upper : Scientific :=
    if num / den + 1 = 10 ^ n then ⟨1, exponent + n⟩ else ⟨num / den + 1, exponent⟩
  if tie.takesUpper (num / den) (num % den) den then [upper, lower] else [lower, upper]

/-- The nearest decimal of at most `n` digits that reads as the double. -/
def withDigits? (tie : Tie) (x : Binary64) (n : Nat) : Option Scientific :=
  (neighbours tie x n).find? (·.readsAs x)

theorem readsAs_of_withDigits? {tie : Tie} {x : Binary64} {n : Nat} {s : Scientific}
    (h : withDigits? tie x n = some s) : s.readsAs x := by
  rw [withDigits?] at h
  have reads := List.find?_some h
  exact reads

/-- The decimal expansion of a finite double. -/
def exact (x : Binary64) : Scientific := ⟨x.units * 5 ^ 1074, -1074⟩

/-- The shortest decimal for a finite double other than zero. -/
def shortest (tie : Tie) (x : Binary64) : Scientific :=
  ((List.range' 1 17).findSome? (withDigits? tie x)).getD (exact x)

end Decimal
end Rollup
