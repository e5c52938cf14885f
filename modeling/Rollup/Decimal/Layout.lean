/-
# How doubles are written

A `Layout` fixes the places between which the shortest digits of a double are
written positionally, with at least one digit behind the point, and how the
exponent looks elsewhere.  Two layouts are in use:

| layout | positional from | below | exponent | halfway |
| --- | --- | --- | --- | --- |
| `Layout.record` | `0.0001` | `1e16` | `1e16`, `1.5e-5` | up |
| `Layout.json` | `0.00001` | `1e16` | `1e+16`, `1.5e-6` | to even |

`fixed` writes a given number of places instead, a half going to the even
neighbour.
-/

import Rollup.Decimal.Shortest

namespace Rollup
namespace Decimal

/-- How the shortest digits of a double are laid out. -/
structure Layout where
  /-- Halfway between two shortest candidates. -/
  tie : Tie
  /-- The least and the greatest place of positional notation. -/
  least : Int
  greatest : Int
  /-- Exponents from zero on carry a plus sign. -/
  plus : Bool
  deriving Repr

/-- The layout of the rows of a record. -/
def Layout.record : Layout := ⟨.up, -3, 16, false⟩

/-- The layout of numbers in JSON. -/
def Layout.json : Layout := ⟨.even, -4, 16, true⟩

/-- So many zeros. -/
def zeros (n : Int) : List Char := List.replicate n.toNat '0'

/-- Digits with a decimal point after the given number of them. -/
def positional (digits : List Char) (place : Int) : List Char :=
  if place ≤ 0 then '0' :: '.' :: zeros (-place) ++ digits
  else if digits.length ≤ place then digits ++ zeros (place - digits.length) ++ ['.', '0']
  else digits.take place.toNat ++ '.' :: digits.drop place.toNat

/-- One digit, the others behind the point, and the power of ten. -/
def exponential (plus : Bool) (digits : List Char) (place : Int) : List Char :=
  let mantissa := match digits with
    | [] | [_] => digits
    | d :: rest => d :: '.' :: rest
  mantissa ++ 'e' :: (if plus && 0 < place then ['+'] else []) ++ writeInt (place - 1)

namespace Layout

/-- A decimal number in the layout. -/
def writeScientific (l : Layout) (s : Scientific) : List Char :=
  if l.least ≤ s.place && s.place ≤ l.greatest then positional (writeNat s.digits) s.place
  else exponential l.plus (writeNat s.digits) s.place

/-- The magnitude of a finite double in the layout. -/
def writeMagnitude (l : Layout) (x : Binary64) : List Char :=
  if x.units = 0 then ['0', '.', '0'] else l.writeScientific (shortest l.tie x)

end Layout

/-- A minus sign for the negative. -/
def sign (negative : Bool) : List Char := if negative then ['-'] else []

/-- The words for infinities and for what is not a number; a finite double as
`write` says, after its sign. -/
def writeWith (write : Binary64 → List Char) (x : Binary64) : List Char :=
  if x.isNaN then ['N', 'a', 'N']
  else sign x.negative ++ if x.isFinite then write x else ['i', 'n', 'f']

/-- A double as a row of a record holds it. -/
def writeReal (x : Binary64) : List Char := writeWith Layout.record.writeMagnitude x

/-- A double as JSON holds it; only finite ones have a form. -/
def writeJson? (x : Binary64) : Option (List Char) :=
  if x.isFinite then some (sign x.negative ++ Layout.json.writeMagnitude x) else none

/-- A double with so many places behind the point, at least one. -/
def fixed (places : Nat) (x : Binary64) : List Char :=
  writeWith (fun x =>
    let n := Binary64.halfEven (x.units * 10 ^ places) (2 ^ 1074)
    let fraction := writeNat (n % 10 ^ places)
    writeNat (n / 10 ^ places) ++ '.' :: zeros (places - fraction.length) ++ fraction) x

end Decimal
end Rollup
