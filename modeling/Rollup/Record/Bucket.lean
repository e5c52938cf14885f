/-
# Buckets: whole numbers of 64 bits

A bucket of a time profile holds a whole number from `-2 ^ 63` up to, and without,
`2 ^ 63`.  Numbers outside that range have no bucket: a token that names one is
no integer of a row, and a sum that leaves the range is an overflow (`add?`).
Only the grand total of a profile is held at the nearer bound instead
(`saturatingAdd`).
-/

import Rollup.Decimal.Integer
import Rollup.Power

namespace Rollup

/-- A whole number that fits into 64 bits with a sign. -/
structure Bucket where
  value : Int
  least_le : -2 ^ 63 ≤ value
  value_lt : value < 2 ^ 63
  deriving DecidableEq, Repr

namespace Bucket

theorem ext_value {a b : Bucket} (h : a.value = b.value) : a = b := by
  cases a; cases b; cases h; rfl

/-- The bucket that holds `i`, if `i` fits. -/
def ofInt? (i : Int) : Option Bucket :=
  if h : -2 ^ 63 ≤ i ∧ i < 2 ^ 63 then some ⟨i, h.1, h.2⟩ else none

theorem ofInt?_eq_some_iff {i : Int} {b : Bucket} : ofInt? i = some b ↔ b.value = i := by
  unfold ofInt?
  split
  · rw [Option.some.injEq]
    exact ⟨fun h => h ▸ rfl, fun h => ext_value h.symm⟩
  · rename_i out
    refine ⟨(nomatch ·), fun h => absurd ?_ out⟩
    exact h ▸ ⟨b.least_le, b.value_lt⟩

theorem ofInt?_eq_none_iff {i : Int} : ofInt? i = none ↔ ¬(-2 ^ 63 ≤ i ∧ i < 2 ^ 63) := by
  unfold ofInt?
  split
  · rename_i fits
    exact ⟨(nomatch ·), fun h => absurd fits h⟩
  · rename_i out
    exact ⟨fun _ => out, fun _ => rfl⟩

@[simp] theorem ofInt?_value (b : Bucket) : ofInt? b.value = some b := ofInt?_eq_some_iff.2 rfl

instance : Inhabited Bucket := ⟨⟨0, by decide, by decide⟩⟩

/-- The nearest number that fits. -/
def clamp (i : Int) : Bucket := ⟨max (-2 ^ 63) (min i (2 ^ 63 - 1)), by omega, by omega⟩

/-- The sum, if it fits. -/
def add? (a b : Bucket) : Option Bucket := ofInt? (a.value + b.value)

theorem add?_eq_some_iff {a b c : Bucket} : a.add? b = some c ↔ c.value = a.value + b.value :=
  ofInt?_eq_some_iff

theorem add?_eq_none_iff {a b : Bucket} :
    a.add? b = none ↔ ¬(-2 ^ 63 ≤ a.value + b.value ∧ a.value + b.value < 2 ^ 63) :=
  ofInt?_eq_none_iff

/-- The sum, or the bound that it passed. -/
def saturatingAdd (a b : Bucket) : Bucket := clamp (a.value + b.value)

@[simp] theorem saturatingAdd_value (a b : Bucket) :
    (a.saturatingAdd b).value = max (-2 ^ 63) (min (a.value + b.value) (2 ^ 63 - 1)) := rfl

/-- The number that a token stands for. -/
def read? (token : List Char) : Option Bucket := (Decimal.readInt? token).bind ofInt?

def write (b : Bucket) : List Char := Decimal.writeInt b.value

/-- The number as it stands in messages. -/
def text (b : Bucket) : String := String.ofList b.write

@[simp] theorem read?_write (b : Bucket) : read? b.write = some b := by simp [read?, write]

end Bucket
end Rollup
