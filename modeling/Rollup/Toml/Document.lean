/-
# TOML documents

A document is a sequence of lines: pairs of a key and a value, and headers in single
or double brackets.  The pairs behind a header belong to its table.  Headers in
double brackets add a table to an array each time; one in single brackets defines
a table that at most has been passed through before.
-/

import Rollup.Toml.Scalar

namespace Rollup
namespace Toml

/-- The elements of an array, behind its opening bracket or a comma. -/
def readElements (item : Reader Value) (s : List Char) : Option (List Value × List Char) := do
  match skipGaps false s with
  | ']' :: rest => return ([], rest)
  | start =>
    let (value, rest) ← item start
    match skipGaps false rest with
    | ']' :: rest => return ([value], rest)
    | ',' :: rest =>
      if rest.length < s.length then do
        let (values, rest) ← readElements item rest
        return (value :: values, rest)
      else none
    | _ => none
termination_by s.length

/-- A key, the equals sign and the value. -/
def readPair (item : Reader Value) (s : List Char) : Option ((List String × Value) × List Char) := do
  let (key, rest) ← readKey s
  let (value, rest) ← item (skipBlanks (← expect? '=' rest))
  return ((key, value), rest)

/-- The pairs between braces, behind the opening one or a comma. -/
def readPairs (item : Reader Value) (s : List Char) :
    Option (List (List String × Value) × List Char) := do
  let (pair, rest) ← readPair item s
  match skipBlanks rest with
  | '\x7d' :: rest => return ([pair], rest)
  | ',' :: rest =>
    if rest.length < s.length then do
      let (pairs, rest) ← readPairs item rest
      return (pair :: pairs, rest)
    else none
  | _ => none
termination_by s.length

/-- Enter pairs one after the other. -/
def enterAll? (inBraces : Bool) (pairs : List (List String × Value)) (entries : Entries) :
    Option Entries :=
  pairs.foldlM (fun entries (key, value) => Entries.enter? inBraces key value entries) entries

/-- A table in braces, behind the opening one. -/
def readBraces (item : Reader Value) (s : List Char) : Option (Value × List Char) := do
  match skipBlanks s with
  | '\x7d' :: rest => return (.table true .defined [], rest)
  | _ =>
    let (pairs, rest) ← readPairs item s
    return (.table true .defined (← enterAll? true pairs []), rest)

/-- A value with at most so many levels of brackets and braces. -/
def readValue : Nat → Reader Value
  | _, '"' :: s => (readText ('"' :: s)).map fun (text, s) => (.text text, s)
  | _, '\'' :: s => (readText ('\'' :: s)).map fun (text, s) => (.text text, s)
  | levels + 1, '[' :: s => (readElements (readValue levels) s).map fun (values, s) => (.array values, s)
  | levels + 1, '\x7b' :: s => readBraces (readValue levels) s
  | _, s => readScalar s

/-- A line of a document. -/
inductive Line where
  /-- A header, in double brackets or not. -/
  | header (isElement : Bool) (path : List String)
  | pair (key : List String) (value : Value)

/-- A header behind its first bracket. -/
def readHeader : Reader Line
  | '[' :: s => do
    let (path, rest) ← readKey s
    return (.header true path, ← restOfLine? (← expect? ']' (← expect? ']' rest)))
  | s => do
    let (path, rest) ← readKey s
    return (.header false path, ← restOfLine? (← expect? ']' rest))

/-- A line that holds something. -/
def readLine : Reader Line
  | '[' :: s => readHeader s
  | s => do
    let ((key, value), rest) ← readPair (readValue (nestingLimit - 1)) s
    return (.pair key value, ← restOfLine? rest)

/-- The lines of a document. -/
def readLines (s : List Char) : Option (List Line) := do
  match skipGaps false s with
  | [] => return []
  | start =>
    let (line, rest) ← readLine start
    if rest.length < s.length then return line :: (← readLines rest) else none
termination_by s.length

/-- The pairs at the start of some lines. -/
def leadingPairs : List Line → List (List String × Value)
  | .pair key value :: rest => (key, value) :: leadingPairs rest
  | _ => []

/-- Put the table of a header, which holds the given pairs, into a document. -/
def addSection (isElement : Bool) (path : List String) (pairs : List (List String × Value))
    (document : Entries) : Option Entries := do
  let key ← path.getLast?
  Entries.changeAt? false false (fun _ entries =>
    match Entries.get? key entries, isElement with
    | none, true => do
      return entries ++ [(key, .tables [.table false .defined (← enterAll? false pairs [])])]
    | some (.tables elements), true => do
      let element := .table false .defined (← enterAll? false pairs [])
      return Entries.replace key (.tables (elements ++ [element])) entries
    | none, false => do
      return entries ++ [(key, .table false .defined (← enterAll? false pairs []))]
    | some (.table false .implied inner), false => do
      return Entries.remove key entries ++ [(key, .table false .defined (← enterAll? false pairs inner))]
    | _, _ => none) path.dropLast .defined document

/-- Add the tables of all headers. -/
def addSections (document : Entries) : List Line → Option Entries
  | [] => some document
  | .pair .. :: rest => addSections document rest
  | .header isElement path :: rest => do
    addSections (← addSection isElement path (leadingPairs rest) document) rest

/-- Drop a byte-order mark. -/
def dropMark : List Char → List Char
  | '\uFEFF' :: s => s
  | s => s

/-- The table that a text stands for. -/
def parse? (text : String) : Option Entries := do
  let lines ← readLines (dropMark text.toList)
  addSections (← enterAll? false (leadingPairs lines) []) lines

end Toml
end Rollup
