/-
# Writing texts in TOML

A text is written in the first of these forms that suits it: with double quotes if
nothing has to be escaped, with apostrophes, over several lines with double quotes,
over several lines with apostrophes, and otherwise with escapes.  In the forms over
several lines a line feed behind the opening quotes is added when the text has one
itself, and line feeds stand as they are.
-/

import Rollup.Decimal.Integer

namespace Rollup
namespace Toml

/-- A control character other than the tab and the line feed. -/
def needsCode (c : Char) : Bool := (c.toNat < 0x20 && c != '\t' && c != '\n') || c.toNat == 0x7F

/-- The greatest number of times that a character stands in a row; `run` counts
those just passed. -/
def longestRun (quote : Char) (run : Nat) : List Char → Nat
  | [] => run
  | c :: s => if c = quote then longestRun quote (run + 1) s else max run (longestRun quote 0 s)

/-- Four upper-case hexadecimal digits. -/
def fourDigits (n : Nat) : List Char :=
  let digits := (Nat.toDigits 16 n).map Char.toUpper
  List.replicate (4 - digits.length) '0' ++ digits

/-- A character between double quotes. -/
def escapeChar (c : Char) : List Char :=
  if c = '"' || c = '\\' then ['\\', c]
  else if c = '\x08' then ['\\', 'b']
  else if c = '\t' then ['\\', 't']
  else if c = '\n' then ['\\', 'n']
  else if c = '\x0c' then ['\\', 'f']
  else if c = '\r' then ['\\', 'r']
  else if needsCode c then ['\\', 'u'] ++ fourDigits c.toNat
  else [c]

/-- Characters between triple double quotes; every third quote in a row is escaped.
`quotes` counts those just passed. -/
def escapeLines (quotes : Nat) : List Char → List Char
  | [] => []
  | '\n' :: s => '\n' :: escapeLines 0 s
  | '"' :: s =>
    if quotes = 2 then '\\' :: '"' :: escapeLines 0 s else '"' :: escapeLines (quotes + 1) s
  | c :: s => escapeChar c ++ escapeLines 0 s

/-- A text between quotes. -/
def quoteText (text : String) : List Char :=
  let s := text.toList
  let plain := !s.any fun c => needsCode c || c = '\\'
  let coded := s.any needsCode
  let broken := s.contains '\n'
  let gap := if broken then ['\n'] else []
  let triple (q : Char) (body : List Char) := [q, q, q] ++ gap ++ body ++ [q, q, q]
  if plain && !broken && !s.contains '"' then '"' :: s.flatMap escapeChar ++ ['"']
  else if !coded && !broken && !s.contains '\'' then '\'' :: s ++ ['\'']
  else if plain && longestRun '"' 0 s ≤ 2 then triple '"' (escapeLines 0 s)
  else if !coded && longestRun '\'' 0 s ≤ 2 then triple '\'' s
  else if broken then triple '"' (escapeLines 0 s)
  else '"' :: s.flatMap escapeChar ++ ['"']

end Toml
end Rollup
