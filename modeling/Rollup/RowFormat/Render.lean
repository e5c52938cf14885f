/-
# Writing a record

Each sequence is written as one line that ends in a line feed, its numbers
divided by commas: integers without a plus sign or leading zeros, reals with the
fewest digits that stand for them.
-/

import Rollup.Decimal.Layout
import Rollup.Record.Basic

namespace Rollup
namespace RowFormat

/-- Texts divided by commas. -/
def commaSeparated : List (List Char) → List Char
  | [] => []
  | [field] => field
  | field :: rest => field ++ ',' :: commaSeparated rest

/-- The three lines of a record. -/
def renderChars (r : Record) : List Char :=
  commaSeparated (r.timeProfiles.map Bucket.write) ++ '\n' ::
  commaSeparated (r.totalCounts.map Decimal.writeReal) ++ '\n' ::
  commaSeparated (r.timeStdevs.map Decimal.writeReal) ++ ['\n']

def render (r : Record) : String := String.ofList (renderChars r)

end RowFormat
end Rollup
