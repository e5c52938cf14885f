/-
# Paths

A path is cut at its slashes.  Its components are the pieces other than the empty
one and `.`; before them stands a root (`/` at the start), a lone `.` at the
start, or nothing.  Two paths are alike when root and components agree, whatever
the number of slashes between them.  The parent of a path is its text up to the
end of the last component but one.

Looking a path up is a matter of its `steps`, which keep every `.`, and of a slash
at the end, which asks for a directory.
-/

import Rollup.FileSystem.Fault
import Rollup.Text.Cut

namespace Rollup
namespace Path

def slash : UInt8 := 0x2F

def dot : Bytes := [0x2E]

def dotDot : Bytes := [0x2E, 0x2E]

def ofString (s : String) : Path := Utf8.encode s

def isAbsolute (p : Path) : Bool := p.head? == some slash

/-- The pieces between slashes. -/
def pieces (p : Path) : List Bytes := Text.cut (· == slash) p

/-- The names and dots on the way to the end of the path. -/
def steps (p : Path) : List Bytes := (pieces p).filter (!·.isEmpty)

def endsInSlash (p : Path) : Bool := p.getLast? == some slash

/-- What stands before the first component: a slash, a dot or nothing. -/
def head (p : Path) : Path :=
  if isAbsolute p then [slash] else if (pieces p).head? = some dot then dot else []

/-- The pieces behind the head. -/
def body (p : Path) : List Bytes := pieces (p.drop (head p).length)

/-- A piece that counts as a component. -/
def isComponent (piece : Bytes) : Bool := !piece.isEmpty && piece != dot

/-- Head and components; equal for paths that are alike. -/
def components (p : Path) : Path × List Bytes := (head p, (body p).filter isComponent)

/-- The two paths differ in slashes and inner dots only. -/
def alike (p q : Path) : Bool := components p == components q

/-- Pieces with slashes between them. -/
def joinPieces : List Bytes → Path
  | [] => []
  | [piece] => piece
  | piece :: rest => piece ++ slash :: joinPieces rest

/-- The pieces up to the last component. -/
def trimPieces (reversed : List Bytes) : List Bytes := reversed.dropWhile (!isComponent ·)

/-- The text before the last component; a root has no parent, nor has the empty
path. -/
def parent? (p : Path) : Option Path :=
  match trimPieces (body p).reverse with
  | _ :: rest => some (head p ++ joinPieces (trimPieces rest).reverse)
  | [] => if head p = dot then some [] else none

/-- The last component, unless it leads upwards. -/
def fileName? (p : Path) : Option Bytes :=
  match trimPieces (body p).reverse with
  | name :: _ => if name = dotDot then none else some name
  | [] => none

/-- The path of a name seen from a directory; an absolute name stands alone. -/
def join (directory name : Path) : Path :=
  if isAbsolute name || directory.isEmpty then name
  else if endsInSlash directory then directory ++ name
  else directory ++ slash :: name

/-- The path as it stands in messages. -/
def display (p : Path) : String := Utf8.display p

example : parent? (ofString "a//b/./c/.") = some (ofString "a//b") := by decide
example : parent? (ofString "./a") = some (ofString ".") := by decide
example : parent? (ofString "a") = some [] ∧ parent? (ofString "/") = none := by decide

end Path
end Rollup
