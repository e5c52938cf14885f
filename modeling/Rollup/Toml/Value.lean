/-
# TOML values and tables

A document is a table.  Tables keep the order of their keys, how they were written
and how they came to be: those of a header or of braces are defined, those that a
header only passes through are implied, and those that a dotted key passes
through are dotted.  A defined table is closed to dotted keys, and a table can be
defined once.

Tables are changed along a path of keys (`changeAt?`), which goes on in the last
element of an array of tables and creates what is missing.
-/

import Rollup.Binary64.Basic

namespace Rollup
namespace Toml

/-- How a table came to be. -/
inductive Origin where
  | defined
  | implied
  | dotted
  deriving DecidableEq, Repr

inductive Value where
  | bool (value : Bool)
  | integer (value : Int)
  | float (value : Binary64)
  /-- A date, a time or both, as written. -/
  | dateTime (text : String)
  | text (value : String)
  | array (elements : List Value)
  /-- The tables of headers in double brackets. -/
  | tables (elements : List Value)
  | table (inBraces : Bool) (origin : Origin) (entries : List (String × Value))

/-- The content of a table, in the order in which keys were first written. -/
abbrev Entries := List (String × Value)

namespace Entries

def get? (key : String) (entries : Entries) : Option Value := entries.lookup key

/-- Replace the value of a key that is there. -/
def replace (key : String) (value : Value) (entries : Entries) : Entries :=
  entries.map fun (k, v) => if k = key then (k, value) else (k, v)

/-- A new key at the end; none if it is there already. -/
def add? (key : String) (value : Value) (entries : Entries) : Option Entries :=
  if (get? key entries).isSome then none else some (entries ++ [(key, value)])

def remove (key : String) (entries : Entries) : Entries := entries.filter (·.1 != key)

/-- Change the table that a path of keys leads to.  The path is that of a header
or, with `dotted`, of a dotted key; inside braces it meets only tables in braces. -/
def changeAt? (inBraces dotted : Bool) (change : Origin → Entries → Option Entries) :
    List String → Origin → Entries → Option Entries
  | [], origin, entries => change origin entries
  | key :: path, _, entries =>
    match get? key entries with
    | none => do
      let origin := if dotted then Origin.dotted else .implied
      let inner ← changeAt? inBraces dotted change path origin []
      return entries ++ [(key, .table inBraces origin inner)]
    | some (.table braces origin inner) =>
      if braces != inBraces || (dotted && origin = .defined) then none
      else do
        let inner ← changeAt? inBraces dotted change path origin inner
        return replace key (.table braces origin inner) entries
    | some (.tables elements) =>
      match elements.getLast? with
      | some (.table braces origin inner) => do
        let inner ← changeAt? inBraces dotted change path origin inner
        return replace key (.tables (elements.dropLast ++ [.table braces origin inner])) entries
      | _ => none
    | some _ => none

/-- Enter the value of a dotted key.  A key of several parts adds to dotted tables
only, a key of one part to any other table. -/
def enter? (inBraces : Bool) (path : List String) (value : Value) (entries : Entries) :
    Option Entries :=
  match path.getLast? with
  | none => none
  | some key =>
    changeAt? inBraces true
      (fun origin inner => if (origin == .dotted) == (path.length == 1) then none else add? key value inner)
      path.dropLast .defined entries

end Entries
end Toml
end Rollup
