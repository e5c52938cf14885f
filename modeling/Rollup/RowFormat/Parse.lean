/-
# Reading a record

A record is three lines: time profiles, total counts and time stdevs.  A blank
line is an empty sequence; behind the third line only blank ones may follow.
-/

import Rollup.Decimal.Real
import Rollup.RowFormat.Error
import Rollup.RowFormat.Fields
import Rollup.Text.Utf8

namespace Rollup
namespace RowFormat

/-- The fields of a line; none for a blank line.  `number` counts from one. -/
def readLine (number : Nat) (line : List Char) : Except FormatError (Option (List (List Char))) :=
  match rowsOfLine line with
  | [] => .ok none
  | row :: more =>
    if more.all isBlankRow then .ok (if isBlankRow row then none else some row)
    else .error (.splitRow number)

/-- The fields of the first three lines, after `before` lines; further ones have
to be blank. -/
def readLines (before : Nat) : List (List Char) → Except FormatError (List (Option (List (List Char))))
  | [] => .ok []
  | line :: rest =>
    if before < 3 then do
      let fields ← readLine (before + 1) line
      return fields :: (← readLines (before + 1) rest)
    else if Text.allBlank line then readLines (before + 1) rest
    else .error (.extraRow (before + 1))

/-- The values of fields that are numbered from `field` on. -/
def readFields {α : Type} (row : Row) (expected : Expected) (read : List Char → Option α)
    (field : Nat) : List (List Char) → Except RowError (List α)
  | [] => .ok []
  | token :: rest => do
    let some value := read token
      | .error (.malformed row field (String.ofList token) expected)
    return value :: (← readFields row expected read (field + 1) rest)

/-- A row of integers; a blank row is empty. -/
def readIntegers (row : Row) (fields : Option (List (List Char))) : Except RowError (List Bucket) :=
  readFields row .integer Bucket.read? 1 (fields.getD [])

/-- A finite double. -/
def readFinite? (token : List Char) : Option Binary64 :=
  (Decimal.readReal? token).filter Binary64.isFinite

/-- A row of reals; a blank row is empty. -/
def readReals (row : Row) (fields : Option (List (List Char))) : Except RowError (List Binary64) :=
  readFields row .real readFinite? 1 (fields.getD [])

/-- The record in the rows of a text. -/
def readRows : List (Option (List (List Char))) → Except RowError Record
  | [] => .error (.absent .timeProfiles)
  | profiles :: rest => do
    let timeProfiles ← readIntegers .timeProfiles profiles
    let counts :: rest := rest | .error (.absent .totalCounts)
    let totalCounts ← readReals .totalCounts counts
    let stdevs :: _ := rest | .error (.absent .timeStdevs)
    let timeStdevs ← readReals .timeStdevs stdevs
    return { timeProfiles, totalCounts, timeStdevs }

/-- The record that a text holds. -/
def parse (content : String) : Except FormatError Record := do
  let rows ← readLines 0 (lines content.toList)
  (readRows rows).mapError .row

/-- The record that the content of a file holds. -/
def parseBytes (content : Bytes) : Except FormatError Record :=
  match Utf8.decode? content with
  | some text => parse text
  | none => .error .notUtf8

@[simp] theorem parseBytes_encode (content : String) :
    parseBytes (Utf8.encode content) = parse content := by simp [parseBytes]

end RowFormat
end Rollup
