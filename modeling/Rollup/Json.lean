/-
# JSON values and their two forms

The compact form has no blanks; the indented form puts each element on a line of
its own, two spaces deeper than its container, and keeps empty containers on one
line.  Members of an object keep their order.  In a text only the quote, the
backslash and the control characters are escaped.  Doubles without a form in JSON
are written as `null`.
-/

import Rollup.Decimal.Layout

namespace Rollup

inductive Json where
  | null
  | bool (value : Bool)
  | integer (value : Int)
  | real (value : Binary64)
  | text (value : String)
  | array (elements : List Json)
  | object (members : List (String × Json))

namespace Json

/-- A whole number of things. -/
def count (n : Nat) : Json := .integer n

/-- A character inside a quoted text. -/
def escapeChar (c : Char) : List Char :=
  if c = '"' || c = '\\' then ['\\', c]
  else if c = '\n' then ['\\', 'n']
  else if c = '\r' then ['\\', 'r']
  else if c = '\t' then ['\\', 't']
  else if c = '\x08' then ['\\', 'b']
  else if c = '\x0c' then ['\\', 'f']
  else if c.toNat < 0x20 then
    ['\\', 'u', '0', '0', Nat.digitChar (c.toNat / 16), Nat.digitChar (c.toNat % 16)]
  else [c]

/-- A text between double quotes. -/
def quote (s : String) : List Char := '"' :: s.toList.flatMap escapeChar ++ ['"']

/-- A value that is no container. -/
def scalar : Json → List Char
  | .null | .array _ | .object _ => "null".toList
  | .bool b => (if b then "true" else "false").toList
  | .integer i => Decimal.writeInt i
  | .real x => (Decimal.writeJson? x).getD "null".toList
  | .text s => quote s

mutual

/-- The form without blanks. -/
def compactChars : Json → List Char
  | .array elements => '[' :: compactElements elements ++ [']']
  | .object members => '\x7b' :: compactMembers members ++ ['\x7d']
  | value => scalar value

def compactElements : List Json → List Char
  | [] => []
  | [value] => compactChars value
  | value :: rest => compactChars value ++ ',' :: compactElements rest

def compactMembers : List (String × Json) → List Char
  | [] => []
  | [(name, value)] => quote name ++ ':' :: compactChars value
  | (name, value) :: rest => quote name ++ ':' :: compactChars value ++ ',' :: compactMembers rest

end

/-- A new line, indented to the given depth. -/
def newline (depth : Nat) : List Char := '\n' :: List.replicate (2 * depth) ' '

mutual

/-- The indented form of a value that stands at the given depth. -/
def prettyChars (depth : Nat) : Json → List Char
  | .array [] => ['[', ']']
  | .array elements => '[' :: prettyElements (depth + 1) elements ++ newline depth ++ [']']
  | .object [] => ['\x7b', '\x7d']
  | .object members => '\x7b' :: prettyMembers (depth + 1) members ++ newline depth ++ ['\x7d']
  | value => scalar value

def prettyElements (depth : Nat) : List Json → List Char
  | [] => []
  | [value] => newline depth ++ prettyChars depth value
  | value :: rest => newline depth ++ prettyChars depth value ++ ',' :: prettyElements depth rest

def prettyMembers (depth : Nat) : List (String × Json) → List Char
  | [] => []
  | [(name, value)] => newline depth ++ quote name ++ [':', ' '] ++ prettyChars depth value
  | (name, value) :: rest =>
    newline depth ++ quote name ++ [':', ' '] ++ prettyChars depth value ++
      ',' :: prettyMembers depth rest

end

def compact (value : Json) : String := String.ofList (compactChars value)

def pretty (value : Json) : String := String.ofList (prettyChars 0 value)

example : (object [("a", array [integer 1, null]), ("b", object [])]).compact =
    "\x7b\"a\":[1,null],\"b\":\x7b\x7d\x7d" := by decide

end Json
end Rollup
