/-
# The words of TOML: blanks, comments, keys and texts

Readers take a list of characters and give what they read and the rest.  Control
characters other than the tab are refused everywhere; a carriage return counts
only before a line feed.

| written | escapes | line feeds |
| --- | --- | --- |
| `"…"` | yes | no |
| `'…'` | no | no |
| `"""…"""` | yes, and a backslash at the end of a line joins lines | yes |
| `'''…'''` | no | yes |

A text over several lines starts behind the first line feed, and up to two quotes
may stand right before the closing three.
-/

import Rollup.Decimal.Integer

namespace Rollup
namespace Toml

/-- Reads a part of the input and gives the rest. -/
abbrev Reader (α : Type) := List Char → Option (α × List Char)

def isBlank (c : Char) : Bool := c = ' ' || c = '\t'

/-- Allowed inside comments: the tab and all that is no control character. -/
def isVisible (c : Char) : Bool := c = '\t' || (0x20 ≤ c.toNat && c.toNat != 0x7F)

def skipBlanks (s : List Char) : List Char := s.dropWhile isBlank

/-- The rest behind a line end. -/
def lineEnd? : List Char → Option (List Char)
  | '\n' :: s => some s
  | '\r' :: '\n' :: s => some s
  | _ => none

/-- Skip a comment, if there is one. -/
def skipComment : List Char → List Char
  | '#' :: s => s.dropWhile isVisible
  | s => s

/-- Skip blanks, a comment and a line end, or the end of the input. -/
def restOfLine? (s : List Char) : Option (List Char) :=
  match skipComment (skipBlanks s) with
  | [] => some []
  | s => lineEnd? s

/-- Skip blanks, line ends and comments; `inComment` tells whether reading stands
inside one. -/
def skipGaps (inComment : Bool) : List Char → List Char
  | [] => []
  | '\n' :: s => skipGaps false s
  | '\r' :: '\n' :: s => skipGaps false s
  | c :: s =>
    if inComment then if isVisible c then skipGaps true s else c :: s
    else if isBlank c then skipGaps false s
    else if c = '#' then skipGaps true s
    else c :: s

/-- The value of a hexadecimal digit. -/
def hexDigit? (c : Char) : Option Nat :=
  if c.isDigit then some (c.toNat - '0'.toNat)
  else if 'a' ≤ c && c ≤ 'f' then some (c.toNat - 'a'.toNat + 10)
  else if 'A' ≤ c && c ≤ 'F' then some (c.toNat - 'A'.toNat + 10)
  else none

/-- The number that digits of a base stand for. -/
def ofDigits? (base : Nat) (digits : List Char) : Option Nat :=
  digits.foldlM (fun n c => do
    let d ← hexDigit? c
    if d < base then some (n * base + d) else none) 0

/-- The character with the given hexadecimal number; surrogates have none. -/
def codePoint? (digits : List Char) : Option Char := do
  let n ← ofDigits? 16 digits
  if n.isValidChar then some (Char.ofNat n) else none

/-- The character behind a backslash with a single letter. -/
def shortEscape? : Char → Option Char
  | 'b' => some '\x08'
  | 't' => some '\t'
  | 'n' => some '\n'
  | 'f' => some '\x0c'
  | 'r' => some '\r'
  | '"' => some '"'
  | '\\' => some '\\'
  | _ => none

/-- Put a character in front of what is read next. -/
def consChar (c : Char) (rest : Option (List Char × List Char)) : Option (List Char × List Char) :=
  rest.map fun (text, s) => (c :: text, s)

/-- A text with escapes on one line, behind its opening quote. -/
def basicText : Reader (List Char)
  | [] => none
  | '"' :: s => some ([], s)
  | '\\' :: 'u' :: a :: b :: c :: d :: s =>
    match codePoint? [a, b, c, d] with
    | some x => consChar x (basicText s)
    | none => none
  | '\\' :: 'U' :: a :: b :: c :: d :: e :: f :: g :: h :: s =>
    match codePoint? [a, b, c, d, e, f, g, h] with
    | some x => consChar x (basicText s)
    | none => none
  | '\\' :: c :: s =>
    match shortEscape? c with
    | some x => consChar x (basicText s)
    | none => none
  | c :: s => if isVisible c && c != '\\' then consChar c (basicText s) else none

/-- A text without escapes on one line, behind its opening quote. -/
def literalText : Reader (List Char)
  | [] => none
  | '\'' :: s => some ([], s)
  | c :: s => if isVisible c then consChar c (literalText s) else none

/-- A text with escapes over several lines, behind its opening quotes and the line
end that may follow them; `joining` tells whether reading stands behind a
backslash that joins lines. -/
def basicLines (joining : Bool) : Reader (List Char)
  | [] => none
  | '"' :: '"' :: '"' :: '"' :: '"' :: s => some (['"', '"'], s)
  | '"' :: '"' :: '"' :: '"' :: s => some (['"'], s)
  | '"' :: '"' :: '"' :: s => some ([], s)
  | '\n' :: s => if joining then basicLines true s else consChar '\n' (basicLines false s)
  | '\r' :: '\n' :: s => if joining then basicLines true s else consChar '\n' (basicLines false s)
  | '\\' :: 'u' :: a :: b :: c :: d :: s =>
    match codePoint? [a, b, c, d] with
    | some x => consChar x (basicLines false s)
    | none => none
  | '\\' :: 'U' :: a :: b :: c :: d :: e :: f :: g :: h :: s =>
    match codePoint? [a, b, c, d, e, f, g, h] with
    | some x => consChar x (basicLines false s)
    | none => none
  | '\\' :: c :: s =>
    match shortEscape? c with
    | some x => consChar x (basicLines false s)
    | none => if (lineEnd? (skipBlanks (c :: s))).isSome then basicLines true (c :: s) else none
  | c :: s =>
    if joining && isBlank c then basicLines true s
    else if isVisible c && c != '\\' then consChar c (basicLines false s)
    else none

/-- A text without escapes over several lines, behind its opening quotes and the
line end that may follow them. -/
def literalLines : Reader (List Char)
  | [] => none
  | '\'' :: '\'' :: '\'' :: '\'' :: '\'' :: s => some (['\'', '\''], s)
  | '\'' :: '\'' :: '\'' :: '\'' :: s => some (['\''], s)
  | '\'' :: '\'' :: '\'' :: s => some ([], s)
  | '\n' :: s => consChar '\n' (literalLines s)
  | '\r' :: '\n' :: s => consChar '\n' (literalLines s)
  | c :: s => if isVisible c then consChar c (literalLines s) else none

/-- Skip a line end, if there is one. -/
def skipLineEnd (s : List Char) : List Char := (lineEnd? s).getD s

/-- A text in any of the four forms. -/
def readText : Reader String
  | '"' :: '"' :: '"' :: s => toText (basicLines false (skipLineEnd s))
  | '"' :: s => toText (basicText s)
  | '\'' :: '\'' :: '\'' :: s => toText (literalLines (skipLineEnd s))
  | '\'' :: s => toText (literalText s)
  | _ => none
where
  toText (read : Option (List Char × List Char)) : Option (String × List Char) :=
    read.map fun (text, s) => (String.ofList text, s)

/-- May stand in a key without quotes. -/
def isKeyChar (c : Char) : Bool := c.isAlphanum || c = '-' || c = '_'

/-- A key of one part. -/
def readKeyPart : Reader String
  | '"' :: s => (basicText s).map fun (text, s) => (String.ofList text, s)
  | '\'' :: s => (literalText s).map fun (text, s) => (String.ofList text, s)
  | s =>
    let key := s.takeWhile isKeyChar
    if key.isEmpty then none else some (String.ofList key, s.dropWhile isKeyChar)

/-- The parts of a key with dots between them. -/
def readKeyParts (s : List Char) : Option (List String × List Char) := do
  let (part, rest) ← readKeyPart (skipBlanks s)
  match skipBlanks rest with
  | '.' :: rest =>
    if rest.length < s.length then do
      let (parts, rest) ← readKeyParts rest
      return (part :: parts, rest)
    else none
  | rest => return ([part], rest)
termination_by s.length

/-- The depth to which values and keys may nest. -/
def nestingLimit : Nat := 80

/-- A key, with the blanks around it. -/
def readKey (s : List Char) : Option (List String × List Char) := do
  let (parts, rest) ← readKeyParts s
  if parts.length < nestingLimit then return (parts, rest) else none

end Toml
end Rollup
