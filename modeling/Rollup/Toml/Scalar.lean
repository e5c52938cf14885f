/-
# Numbers, dates and truth values of TOML

A scalar without quotes is one word of letters, digits and `+-_.:`; only between a
date and a time a single space may stand.

Digits may be grouped by single underscores between them.  Decimal integers have
no leading zeros and no integer leaves the range of 64 bits.  A float has a
fraction or an exponent and must not be so great that it reads as infinity.  Dates
have to exist, and a leap second is allowed in any minute.
-/

import Rollup.Decimal.Real
import Rollup.Record.Bucket
import Rollup.Text.Cut
import Rollup.Toml.Lexical
import Rollup.Toml.Value

namespace Rollup
namespace Toml

def isWordChar (c : Char) : Bool :=
  c.isAlphanum || c = '+' || c = '-' || c = '_' || c = '.' || c = ':'

/-- Groups of digits with single underscores between them. -/
def isGrouped (isDigit : Char → Bool) (s : List Char) : Bool :=
  (Text.cut (· == '_') s).all fun group => !group.isEmpty && group.all isDigit

def ungroup (s : List Char) : List Char := s.filter (· != '_')

/-- The number behind a sign, if there is one. -/
def unsigned : List Char → List Char
  | '+' :: s => s
  | '-' :: s => s
  | s => s

/-- A decimal integer without leading zeros. -/
def isDecimal (s : List Char) : Bool :=
  let digits := unsigned s
  digits == ['0'] || (digits.head? != some '0' && isGrouped Char.isDigit digits)

/-- An integer of the given base, behind the letters that announce it. -/
def ofBase? (base : Nat) (s : List Char) : Option Int :=
  if isGrouped (fun c => (hexDigit? c).any (· < base)) s then
    (ofDigits? base (ungroup s)).map Int.ofNat
  else none

/-- The integer that a word stands for. -/
def integerOf? (word : List Char) : Option Int :=
  let number := match word with
    | '0' :: 'x' :: s => ofBase? 16 s
    | '0' :: 'o' :: s => ofBase? 8 s
    | '0' :: 'b' :: s => ofBase? 2 s
    | s => if isDecimal s then Decimal.readInt? (ungroup s) else none
  number.filter fun i => (Bucket.ofInt? i).isSome

/-- An exponent behind its letter. -/
def isExponent (s : List Char) : Bool := isGrouped Char.isDigit (unsigned s)

/-- The word has the form of a float with a fraction or an exponent. -/
def isFloat (word : List Char) : Bool :=
  let mantissa := word.takeWhile fun c => c != 'e' && c != 'E'
  let exponent := word.drop mantissa.length
  let whole := mantissa.takeWhile (· != '.')
  let fraction := mantissa.drop whole.length
  isDecimal whole && !(fraction.isEmpty && exponent.isEmpty) &&
    (fraction.isEmpty || isGrouped Char.isDigit (fraction.drop 1)) &&
    (exponent.isEmpty || isExponent (exponent.drop 1))

/-- The float that a word stands for. -/
def floatOf? (word : List Char) : Option Binary64 :=
  if unsigned word = "inf".toList || unsigned word = "nan".toList then Decimal.readReal? word
  else if isFloat word then (Decimal.readReal? (ungroup word)).filter (· != .inf false)
  else none

/-- The number of exactly so many digits at the start, and the rest. -/
def digitsOf? (n : Nat) (s : List Char) : Option (Nat × List Char) :=
  let digits := s.take n
  if digits.length = n && digits.all Char.isDigit then some (Decimal.value digits, s.drop n) else none

/-- The rest behind a character that has to be there. -/
def expect? (c : Char) : List Char → Option (List Char)
  | d :: s => if c = d then some s else none
  | [] => none

def isLeapYear (year : Nat) : Bool := year % 4 == 0 && (year % 100 != 0 || year % 400 == 0)

def daysInMonth (year month : Nat) : Nat :=
  if month = 2 then if isLeapYear year then 29 else 28
  else if month = 4 || month = 6 || month = 9 || month = 11 then 30
  else 31

/-- The rest behind a date. -/
def skipDate? (s : List Char) : Option (List Char) := do
  let (year, s) ← digitsOf? 4 s
  let (month, s) ← digitsOf? 2 (← expect? '-' s)
  let (day, s) ← digitsOf? 2 (← expect? '-' s)
  if 1 ≤ month && month ≤ 12 && 1 ≤ day && day ≤ daysInMonth year month then return s else none

/-- The rest behind a fraction of a second, if there is one. -/
def skipFraction (s : List Char) : List Char :=
  match s with
  | '.' :: c :: rest => if c.isDigit then rest.dropWhile Char.isDigit else s
  | _ => s

/-- The rest behind hours and minutes. -/
def skipMinutes? (s : List Char) : Option (List Char) := do
  let (hour, s) ← digitsOf? 2 s
  let (minute, s) ← digitsOf? 2 (← expect? ':' s)
  if hour ≤ 23 && minute ≤ 59 then return s else none

/-- The rest behind a time. -/
def skipTime? (s : List Char) : Option (List Char) := do
  let s ← skipMinutes? s
  let (second, s) ← digitsOf? 2 (← expect? ':' s)
  if second ≤ 60 then return skipFraction s else none

/-- Nothing, `Z`, or a sign with hours and minutes. -/
def isOffset : List Char → Bool
  | [] => true
  | [c] => c = 'Z' || c = 'z'
  | c :: s => (c = '+' || c = '-') && skipMinutes? s = some []

/-- A time with the offset that it may have. -/
def isTimeWithOffset (s : List Char) : Bool := (skipTime? s).any isOffset

/-- The word is a date, a time or both. -/
def isDateTime (word : List Char) : Bool :=
  skipTime? word = some [] ||
    match skipDate? word with
    | some [] => true
    | some (c :: s) => (c = 'T' || c = 't') && isTimeWithOffset s
    | none => false

/-- The value of a word. -/
def valueOf? (word : List Char) : Option Value :=
  if word = "true".toList then some (.bool true)
  else if word = "false".toList then some (.bool false)
  else if isDateTime word then some (.dateTime (String.ofList word))
  else match floatOf? word with
    | some x => some (.float x)
    | none => (integerOf? word).map .integer

/-- A scalar without quotes. -/
def readScalar (s : List Char) : Option (Value × List Char) := do
  let word := s.takeWhile isWordChar
  let rest := s.dropWhile isWordChar
  match skipDate? word, rest with
  | some [], ' ' :: c :: more =>
    if c.isDigit then
      let time := (c :: more).takeWhile isWordChar
      if isTimeWithOffset time then
        return (.dateTime (String.ofList (word ++ ' ' :: time)), (c :: more).dropWhile isWordChar)
      else none
    else return (← valueOf? word, rest)
  | _, _ => return (← valueOf? word, rest)

end Toml
end Rollup
