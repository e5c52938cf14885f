/-
# Blank characters

The 25 characters with the Unicode property `White_Space`, and trimming by
them.  Fields of a row are trimmed by this class and a line is blank when it
holds nothing else.  Trimming erases exactly the blank texts
(`trim_eq_nil_iff`) and leaves a text without blanks alone (`trim_eq_self`).
-/

namespace Rollup
namespace Text

/-- The property `White_Space`. -/
def isBlank (c : Char) : Bool :=
  c.val == 0x20 || (0x09 ≤ c.val && c.val ≤ 0x0D) || c.val == 0x85 || c.val == 0xA0 ||
  c.val == 0x1680 || (0x2000 ≤ c.val && c.val ≤ 0x200A) || c.val == 0x2028 || c.val == 0x2029 ||
  c.val == 0x202F || c.val == 0x205F || c.val == 0x3000

/-- Drop the blanks at the start. -/
def trimLeft (s : List Char) : List Char := s.dropWhile isBlank

/-- Drop the blanks at the end. -/
def trimRight : List Char → List Char
  | [] => []
  | c :: s =>
    match trimRight s with
    | [] => if isBlank c then [] else [c]
    | t => c :: t

/-- Drop the blanks at both ends. -/
def trim (s : List Char) : List Char := trimRight (trimLeft s)

/-- Nothing but blanks. -/
def allBlank (s : List Char) : Bool := s.all isBlank

theorem trimRight_eq_nil_iff {s : List Char} : trimRight s = [] ↔ allBlank s := by
  induction s with
  | nil => simp [trimRight, allBlank]
  | cons c s ih =>
    cases h : trimRight s with
    | nil => cases hb : isBlank c <;> simp_all [trimRight, allBlank]
    | cons d t => simp_all [trimRight, allBlank]

theorem trimRight_cons_of_not_blank {c : Char} {s : List Char} (h : isBlank c = false) :
    trimRight (c :: s) = c :: trimRight s := by
  cases hs : trimRight s <;> simp [trimRight, hs, h]

theorem trim_eq_nil_iff {s : List Char} : trim s = [] ↔ allBlank s := by
  rw [trim, trimRight_eq_nil_iff]
  induction s with
  | nil => simp [trimLeft]
  | cons c s ih => cases hb : isBlank c <;> simp_all [trimLeft, allBlank]

/-- A text without blanks is its own trimmed form. -/
theorem trim_eq_self {s : List Char} (h : ∀ c ∈ s, isBlank c = false) : trim s = s := by
  have hr : trimRight s = s := by
    induction s with
    | nil => rfl
    | cons c s ih =>
      rw [trimRight_cons_of_not_blank (h c (by simp)), ih fun d hd => h d (by simp [hd])]
  have hl : trimLeft s = s := by
    cases s with
    | nil => rfl
    | cons c s => simp [trimLeft, h c (by simp)]
  rw [trim, hl, hr]

/-- A blank at the end is trimmed away. -/
theorem trim_concat_of_blank {c : Char} (h : isBlank c = true) (s : List Char) :
    trim (s ++ [c]) = trim s := by
  have hright : ∀ s, trimRight (s ++ [c]) = trimRight s := by
    intro s
    induction s with
    | nil => simp [trimRight, h]
    | cons d s ih => rw [List.cons_append, trimRight, trimRight, ih]
  unfold trim trimLeft
  induction s with
  | nil => simp [h]
  | cons d s ih =>
    cases hd : isBlank d with
    | true => simpa [hd] using ih
    | false =>
      rw [List.cons_append, List.dropWhile_cons_of_neg (by simp [hd]),
        List.dropWhile_cons_of_neg (by simp [hd]), ← List.cons_append, hright]

end Text
end Rollup
