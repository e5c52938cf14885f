/-
# Lines and their fields

A text is cut at line feeds; a carriage return right before one belongs to it,
and nothing follows a line feed at the very end.

Inside a line, a comma ends a field and a carriage return ends the whole row of
fields, so a line may hold several rows; carriage returns between rows are
skipped.  A field that begins with a double quote is quoted: up to the closing
quote, commas and carriage returns are text, and a doubled quote stands for one.
Text behind the closing quote continues the field as if it had not been quoted,
and a quote that is never closed reaches to the end of the line.  A byte-order
mark at the start of a line is dropped.  Fields are trimmed.

Reading goes in two steps: `tokens` settles which characters are text and which
are marks, and `Text.cut` divides the tokens at the marks.
-/

import Rollup.Text.Blank
import Rollup.Text.Cut

namespace Rollup
namespace RowFormat

/-- Drop a carriage return at the end. -/
def dropReturn (line : List Char) : List Char :=
  if line.getLast? = some '\r' then line.dropLast else line

/-- The lines of a text that is cut into the given parts at its line feeds. -/
def terminate : List (List Char) → List (List Char)
  | [] => []
  | [last] => if last.isEmpty then [] else [last]
  | line :: rest => dropReturn line :: terminate rest

/-- The lines of a text. -/
def lines (text : List Char) : List (List Char) := terminate (Text.cut (· == '\n') text)

/-- Where reading stands within a field. -/
inductive Position where
  | start
  | plain
  | quoted
  /-- Behind a quote that closes the field or is the first of two. -/
  | closing
  deriving DecidableEq, Repr

/-- What a character of a line counts as. -/
inductive Token where
  | char (c : Char)
  | openingQuote
  | comma
  | endOfRow
  deriving DecidableEq, Repr

/-- The tokens of a line, read from the given position on. -/
def tokens : Position → List Char → List Token
  | _, [] => []
  | .quoted, c :: s => if c = '"' then tokens .closing s else .char c :: tokens .quoted s
  | position, c :: s =>
    if c = '"' && position = .start then .openingQuote :: tokens .quoted s
    else if c = '"' && position = .closing then .char c :: tokens .quoted s
    else if c = ',' then .comma :: tokens .start s
    else if c = '\r' then .endOfRow :: tokens .start s
    else .char c :: tokens .plain s

/-- The text among the tokens of a field. -/
def Token.char? : Token → Option Char
  | .char c => some c
  | _ => none

/-- The fields among the tokens of a row. -/
def fieldsOf (row : List Token) : List (List Char) :=
  (Text.cut (· == .comma) row).map fun field => Text.trim (field.filterMap Token.char?)

/-- Drop a byte-order mark. -/
def dropMark : List Char → List Char
  | '\uFEFF' :: s => s
  | s => s

/-- The rows that a line holds, each with its fields. -/
def rowsOfLine (line : List Char) : List (List (List Char)) :=
  ((Text.cut (· == .endOfRow) (tokens .start (dropMark line))).filter (!·.isEmpty)).map fieldsOf

/-- A row of one empty field is blank. -/
def isBlankRow (fields : List (List Char)) : Bool := fields == [[]]

example : rowsOfLine "1, 2 ,\"a,\"\"b\"c\r\rx".toList =
    [["1".toList, "2".toList, "a,\"bc".toList], ["x".toList]] := by decide

end RowFormat
end Rollup
