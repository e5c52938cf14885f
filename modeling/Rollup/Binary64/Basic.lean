/-
# Binary64: double precision numbers

A double is a sign and a 63-bit magnitude, the bits below the sign bit.  Each
finite magnitude stands for a multiple of `2 ^ -1074`, the least positive
double; that multiple is `units`:

| magnitude `m` | meaning | `units` |
| --- | --- | --- |
| `m < 2 ^ 52` | subnormal | `m` |
| `m < infinite` | normal, exponent field `m / 2 ^ 52` | `(2 ^ 52 + m % 2 ^ 52) * 2 ^ (m / 2 ^ 52 - 1)` |
| `m = infinite` | infinity | |
| `infinite < m` | not a number | |

Magnitudes are ordered as the values are, so the total order of doubles (`key`)
puts the negative ones first, by falling magnitude: `-NaN`, `-inf`, the negative
numbers, `-0`, `0`, the positive numbers, `inf`, `NaN`.  Two doubles with one key
are equal bit for bit (`key_injective`).
-/

import Rollup.Power

namespace Rollup

/-- A double precision number, by its bits. -/
structure Binary64 where
  negative : Bool
  magnitude : Nat
  magnitude_lt : magnitude < 2 ^ 63
  deriving DecidableEq, Repr

namespace Binary64

/-- The magnitude of the infinities. -/
def infinite : Nat := 0x7FF * 2 ^ 52

def isFinite (x : Binary64) : Bool := x.magnitude < infinite

def isNaN (x : Binary64) : Bool := infinite < x.magnitude

/-- A quiet NaN. -/
def nan : Binary64 := ⟨false, infinite + 2 ^ 51, by decide⟩

def inf (negative : Bool) : Binary64 := ⟨negative, infinite, by decide⟩

def zero (negative : Bool) : Binary64 := ⟨negative, 0, by decide⟩

/-- The value of a finite magnitude as a multiple of `2 ^ -1074`. -/
def unitsOf (m : Nat) : Nat :=
  if m < 2 ^ 52 then m else (2 ^ 52 + m % 2 ^ 52) * 2 ^ (m / 2 ^ 52 - 1)

/-- The absolute value as a multiple of `2 ^ -1074`. -/
def units (x : Binary64) : Nat := unitsOf x.magnitude

/-- The signed value as a multiple of `2 ^ -1074`. -/
def scaled (x : Binary64) : Int := if x.negative then -(x.units : Int) else x.units

/-- Position in the total order. -/
def key (x : Binary64) : Int := if x.negative then -(x.magnitude : Int) - 1 else x.magnitude

theorem key_injective {x y : Binary64} (h : x.key = y.key) : x = y := by
  obtain ⟨s, m, hm⟩ := x
  obtain ⟨t, n, hn⟩ := y
  cases s <;> cases t <;> simp [key] at h ⊢ <;> omega

/-- The total order. -/
def le (x y : Binary64) : Bool := x.key ≤ y.key

theorem le_trans {x y z : Binary64} (h₁ : x.le y) (h₂ : y.le z) : x.le z := by
  simp only [le, decide_eq_true_eq] at *; omega

theorem le_total (x y : Binary64) : x.le y || y.le x := by
  simp only [le, Bool.or_eq_true, decide_eq_true_eq]; omega

theorem le_antisymm {x y : Binary64} (h₁ : x.le y) (h₂ : y.le x) : x = y := by
  apply key_injective
  simp only [le, decide_eq_true_eq] at *; omega

end Binary64
end Rollup
