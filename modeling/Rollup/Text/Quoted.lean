/-
# Quoted text

Names and tokens stand in messages between double quotes.  Inside them, NUL,
tab, line feed, carriage return, the double quote and the backslash are written
with a backslash, and any character that is not printable or that attaches to
the one before it by its code point in hexadecimal.  Paths are quoted in the same
way; a byte of a broken sequence is written as two hexadecimal digits.
-/

import Rollup.Text.Utf8
import Rollup.Text.Printable

namespace Rollup
namespace Text

/-- Escape by code point: `\\u`, then the hexadecimal digits in braces. -/
def codePointEscape (c : Char) : List Char :=
  ['\\', 'u', '\x7b'] ++ Nat.toDigits 16 c.toNat ++ ['\x7d']

/-- A character as it stands between quotes. -/
def quotedChar (c : Char) : List Char :=
  if c = '\x00' then ['\\', '0']
  else if c = '\t' then ['\\', 't']
  else if c = '\n' then ['\\', 'n']
  else if c = '\r' then ['\\', 'r']
  else if c = '"' || c = '\\' then ['\\', c]
  else if extendsGrapheme c || !isPrintable c then codePointEscape c
  else [c]

/-- A text between double quotes. -/
def quoted (s : String) : String :=
  String.ofList (['"'] ++ s.toList.flatMap quotedChar ++ ['"'])

/-- Two upper-case hexadecimal digits. -/
def hexByte (b : UInt8) : List Char :=
  [Nat.digitChar (b.toNat / 16), Nat.digitChar (b.toNat % 16)].map Char.toUpper

/-- A piece of a path as it stands between quotes. -/
def quotedPiece : Utf8.Piece → List Char
  | .char c => quotedChar c
  | .broken bytes => bytes.flatMap fun b => ['\\', 'x'] ++ hexByte b

/-- A byte string between double quotes. -/
def quotedBytes (b : Bytes) : String :=
  String.ofList (['"'] ++ (Utf8.pieces b).flatMap quotedPiece ++ ['"'])

example : quoted "a\"b" = "\"a\\\"b\"" := by decide
example : quoted "\u0301\u200b" = "\"\\u\x7b301\x7d\\u\x7b200b\x7d\"" := by decide +kernel

end Text
end Rollup
