/-
# What may be wrong with the text of a record

The three rows are read in order, and an error tells which row is at fault and,
counted from one, which field.  Text that holds more than three rows is refused
by its line, before any field is looked at.
-/

import Rollup.Decimal.Integer
import Rollup.Record.Basic
import Rollup.Text.Quoted

namespace Rollup
namespace RowFormat

/-- What the fields of a row have to be. -/
inductive Expected where
  | integer
  | real
  deriving DecidableEq, Repr

def Expected.name : Expected → String
  | .integer => "an integer"
  | .real => "a finite real number"

/-- A fault of a single row. -/
inductive RowError where
  | absent (row : Row)
  | malformed (row : Row) (field : Nat) (token : String) (expected : Expected)
  deriving DecidableEq, Repr

def RowError.message : RowError → String
  | .absent row => row.name ++ " row is absent"
  | .malformed row field token expected =>
    row.name ++ " row, field " ++ Decimal.natText field ++ ": " ++ Text.quoted token ++
      " is not " ++ expected.name

/-- Why a content is no record. -/
inductive FormatError where
  | row (error : RowError)
  | extraRow (line : Nat)
  | splitRow (line : Nat)
  | notUtf8
  deriving DecidableEq, Repr

def FormatError.message : FormatError → String
  | .row error => error.message
  | .extraRow line =>
    "unexpected data on line " ++ Decimal.natText line ++ ", expected exactly three rows"
  | .splitRow line =>
    "line " ++ Decimal.natText line ++ " holds more than one row (stray carriage return)"
  | .notUtf8 => "content is not valid UTF-8"

end RowFormat
end Rollup
