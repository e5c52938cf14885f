/-
# Decimal integers

An integer is an optional sign and at least one ASCII digit.  `readInt?` reads
it and `writeInt` writes the form without a plus sign or leading zeros, which
reads back (`readInt?_writeInt`).
-/

namespace Rollup
namespace Decimal

/-- At least one character, and digits only. -/
def isDigits (s : List Char) : Bool := !s.isEmpty && s.all Char.isDigit

/-- The number that a run of digits stands for. -/
def value (s : List Char) : Nat := Nat.ofDigitChars 10 s 0

/-- The number written as at least one digit. -/
def readNat? (s : List Char) : Option Nat := if isDigits s then some (value s) else none

/-- The number written as an optional sign and at least one digit. -/
def readInt? : List Char → Option Int
  | '-' :: s => (readNat? s).map fun n : Nat => -(n : Int)
  | '+' :: s => (readNat? s).map Int.ofNat
  | s => (readNat? s).map Int.ofNat

/-- The digits of a number, without leading zeros. -/
def writeNat (n : Nat) : List Char := Nat.toDigits 10 n

def writeInt (i : Int) : List Char := if i < 0 then '-' :: writeNat i.natAbs else writeNat i.natAbs

/-- The digits of a number as a text. -/
def natText (n : Nat) : String := String.ofList (writeNat n)

/-- How many digits a number has; zero has one. -/
def length (n : Nat) : Nat := (writeNat n).length

theorem isDigit_of_mem_writeNat {n : Nat} {c : Char} (h : c ∈ writeNat n) : c.isDigit :=
  Nat.isDigit_of_mem_toDigits (by decide) (by decide) h

theorem isDigits_writeNat (n : Nat) : isDigits (writeNat n) := by
  simp only [isDigits, Bool.and_eq_true, List.all_eq_true, Bool.not_eq_true', List.isEmpty_eq_false_iff]
  exact ⟨Nat.toDigits_ne_nil, fun _ h => isDigit_of_mem_writeNat h⟩

@[simp] theorem readNat?_writeNat (n : Nat) : readNat? (writeNat n) = some n := by
  rw [readNat?, if_pos (isDigits_writeNat n), value, writeNat, Nat.ofDigitChars_ten_toDigits]

theorem readInt?_of_isDigits {s : List Char} (h : isDigits s) :
    readInt? s = some (value s : Int) := by
  have hs : readNat? s = some (value s) := if_pos h
  match s, h with
  | c :: t, h =>
    have hc : c.isDigit := by simp [isDigits] at h; exact h.1
    have h₁ : c ≠ '-' := by rintro rfl; simp at hc
    have h₂ : c ≠ '+' := by rintro rfl; simp at hc
    unfold readInt?
    split
    · rename_i heq; exact absurd (List.cons.inj heq).1 h₁
    · rename_i heq; exact absurd (List.cons.inj heq).1 h₂
    · rw [hs]; rfl

/-- **A written integer reads back.** -/
@[simp] theorem readInt?_writeInt (i : Int) : readInt? (writeInt i) = some i := by
  unfold writeInt
  split
  · rw [readInt?, readNat?_writeNat, Option.map_some, Option.some.injEq]
    omega
  · have h := readInt?_of_isDigits (isDigits_writeNat i.natAbs)
    have hv : value (writeNat i.natAbs) = i.natAbs := Nat.ofDigitChars_ten_toDigits
    rw [h, hv]
    simp only [Option.some.injEq]; omega

end Decimal
end Rollup
