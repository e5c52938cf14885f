/-
# Byte strings and their text

File names and file contents are byte strings; most of them are the UTF-8 form
of a text.  `Utf8.encode` writes that form, `Utf8.decode?` reads it back and
refuses everything else (`decode?_encode`, `encode_of_decode?`), and
`Utf8.display` shows any byte string: broken sequences appear as U+FFFD, one for
each longest run that starts a character and does not finish it.

Names are compared by their bytes (`Utf8.compareText`), so that a listing of
texts and a listing of byte strings come in one order.
-/

import Std.Data.TreeMap

namespace Rollup

/-- A byte string: a file name, a path or the content of a file. -/
abbrev Bytes := List UInt8

namespace Utf8

/-- The UTF-8 form of a text. -/
def encode (s : String) : Bytes := s.toByteArray.data.toList

/-- The text whose UTF-8 form is `b`, if there is one. -/
def decode? (b : Bytes) : Option String := String.fromUTF8? ⟨b.toArray⟩

@[simp] theorem decode?_encode (s : String) : decode? (encode s) = some s := by
  have h : (⟨(encode s).toArray⟩ : ByteArray) = s.toByteArray := by simp [encode]
  rw [decode?, h, String.fromUTF8?]
  simp [String.fromUTF8, s.isValidUTF8]

theorem encode_of_decode? {b : Bytes} {s : String} (h : decode? b = some s) : encode s = b := by
  simp only [decode?, String.fromUTF8?] at h
  split at h
  · obtain rfl := Option.some.inj h
    simp [encode, String.fromUTF8]
  · simp at h

theorem encode_injective {s t : String} (h : encode s = encode t) : s = t := by
  have := decode?_encode s
  rw [h, decode?_encode] at this
  exact (Option.some.inj this).symm

theorem encode_append (s t : String) : encode (s ++ t) = encode s ++ encode t := by
  simp [encode, String.toByteArray_append]

/-- The order of texts by the bytes of their UTF-8 form. -/
def compareText (s t : String) : Ordering := compare (encode s) (encode t)

instance : Std.TransCmp compareText where
  eq_swap {s t} := @Std.OrientedCmp.eq_swap Bytes compare _ (encode s) (encode t)
  isLE_trans {s t u} := @Std.TransCmp.isLE_trans Bytes compare _ (encode s) (encode t) (encode u)

instance : Std.LawfulEqCmp compareText where
  compare_self {s} := @Std.ReflCmp.compare_self Bytes compare _ (encode s)
  eq_of_compare h := encode_injective (Std.LawfulEqCmp.eq_of_compare h)

/-- A byte that continues a character. -/
def isContinuation (b : UInt8) : Bool := 0x80 ≤ b && b ≤ 0xBF

/-- How many bytes follow the first byte of a character, and the range of the
second one; `none` for a byte that starts no character. -/
def follow? (b : UInt8) : Option (Nat × UInt8 × UInt8) :=
  if b < 0x80 then some (0, 0, 0)
  else if 0xC2 ≤ b && b ≤ 0xDF then some (1, 0x80, 0xBF)
  else if b = 0xE0 then some (2, 0xA0, 0xBF)
  else if b = 0xED then some (2, 0x80, 0x9F)
  else if 0xE1 ≤ b && b ≤ 0xEF then some (2, 0x80, 0xBF)
  else if b = 0xF0 then some (3, 0x90, 0xBF)
  else if b = 0xF4 then some (3, 0x80, 0x8F)
  else if 0xF1 ≤ b && b ≤ 0xF3 then some (3, 0x80, 0xBF)
  else none

/-- Length of the longest start of `rest` that continues the character begun
by `b`, and whether it finishes it. -/
def continuation (b : UInt8) (rest : Bytes) : Nat × Bool :=
  match follow? b with
  | none => (0, false)
  | some (0, _, _) => (0, true)
  | some (n + 1, low, high) =>
    match rest with
    | [] => (0, false)
    | c :: more =>
      if low ≤ c && c ≤ high then
        let k := ((more.take n).takeWhile isContinuation).length
        (k + 1, k == n)
      else (0, false)

/-- A piece of a byte string: a character or a broken sequence. -/
inductive Piece where
  | char (c : Char)
  | broken (bytes : Bytes)
  deriving DecidableEq, Repr

/-- The character of a complete sequence. -/
def pieceOf (bytes : Bytes) : Piece :=
  match (decode? bytes).bind fun s => s.toList.head? with
  | some c => .char c
  | none => .broken bytes

/-- The characters and broken sequences of a byte string, in order. -/
def pieces : Bytes → List Piece
  | [] => []
  | b :: rest =>
    let (n, complete) := continuation b rest
    let head := b :: rest.take n
    (if complete then pieceOf head else .broken head) :: pieces (rest.drop n)
termination_by b => b.length
decreasing_by simp only [List.length_drop, List.length_cons]; omega

/-- The text shown for a byte string. -/
def display (b : Bytes) : String :=
  match decode? b with
  | some s => s
  | none => String.ofList ((pieces b).map fun
      | .char c => c
      | .broken _ => '\uFFFD')

@[simp] theorem display_encode (s : String) : display (encode s) = s := by simp [display]

end Utf8
end Rollup
