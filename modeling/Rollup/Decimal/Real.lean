/-
# Reading decimal numbers as doubles

A number is an optional sign, digits with at most one decimal point among or
around them (at least one digit in all), and optionally `e` or `E` with a signed
whole exponent.  The words `inf`, `infinity` and `nan` count in any case.  The
number is rounded once, to the nearest double (`Binary64.nearest`).

Exponents may be as long as the text allows, so numbers of more than 310 places
before the point are taken for infinite and numbers whose first digit comes after
330 zeros behind the point for zero before any power of ten is formed.
-/

import Rollup.Binary64.Arithmetic
import Rollup.Decimal.Integer

namespace Rollup
namespace Decimal

/-- The double nearest to `digits * 10 ^ exponent`. -/
def toBinary64 (negative : Bool) (digits : Nat) (exponent : Int) : Binary64 :=
  let places := exponent + length digits
  if digits = 0 then .zero negative
  else if places > 310 then .inf negative
  else if places < -330 then .zero negative
  else if exponent < 0 then .round negative (digits * 2 ^ 1074) (10 ^ exponent.natAbs)
  else .round negative (digits * 2 ^ 1074 * 10 ^ exponent.natAbs) 1

/-- The digits at the start of a text, and the rest. -/
def spanDigits (s : List Char) : List Char × List Char := s.span Char.isDigit

/-- The exponent at the end of a number; none counts as zero. -/
def readExponent? : List Char → Option Int
  | [] => some 0
  | c :: s => if c = 'e' || c = 'E' then readInt? s else none

/-- A number without its sign. -/
def readUnsigned? (negative : Bool) (s : List Char) : Option Binary64 :=
  let (whole, rest) := spanDigits s
  let (fraction, rest) := match rest with
    | '.' :: rest => spanDigits rest
    | _ => ([], rest)
  if whole.isEmpty && fraction.isEmpty then none
  else (readExponent? rest).map fun e =>
    toBinary64 negative (value (whole ++ fraction)) (e - fraction.length)

/-- A number or one of the special words, without its sign. -/
def readMagnitude? (negative : Bool) (s : List Char) : Option Binary64 :=
  let word := String.ofList (s.map Char.toLower)
  if word = "inf" || word = "infinity" then some (.inf negative)
  else if word = "nan" then some { Binary64.nan with negative }
  else readUnsigned? negative s

/-- The double that a text stands for. -/
def readReal? : List Char → Option Binary64
  | '-' :: s => readMagnitude? true s
  | '+' :: s => readMagnitude? false s
  | s => readMagnitude? false s

end Decimal
end Rollup
