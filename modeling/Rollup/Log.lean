/-
# Log lines

A log entry has a level and a message; the threshold of a run decides which
levels appear.  In a message the characters that could steer a terminal are
written by their code.
-/

namespace Rollup
namespace Log

inductive Level where
  | error
  | warn
  | info
  | debug
  deriving DecidableEq, Repr

def Level.name : Level → String
  | .error => "ERROR"
  | .warn => "WARN"
  | .info => "INFO"
  | .debug => "DEBUG"

/-- Position among the levels, the gravest first. -/
def Level.rank : Level → Nat
  | .error => 0
  | .warn => 1
  | .info => 2
  | .debug => 3

structure Entry where
  level : Level
  message : String
  deriving DecidableEq, Repr

def Entry.error (message : String) : Entry := ⟨.error, message⟩

def Entry.warn (message : String) : Entry := ⟨.warn, message⟩

def Entry.info (message : String) : Entry := ⟨.info, message⟩

def Entry.debug (message : String) : Entry := ⟨.debug, message⟩

/-- A character of a message. -/
def escapeChar (c : Char) : List Char :=
  let n := c.toNat
  if n = 0x07 || n = 0x08 || n = 0x0C || n = 0x1B || n = 0x7F then
    ['\\', 'x', Nat.digitChar (n / 16), Nat.digitChar (n % 16)]
  else if 0x80 ≤ n && n ≤ 0x9F then ['\\', 'u', '\x7b'] ++ Nat.toDigits 16 n ++ ['\x7d']
  else [c]

/-- The line of an entry. -/
def Entry.line (e : Entry) : String :=
  e.level.name ++ " " ++ String.ofList (e.message.toList.flatMap escapeChar)

/-- The lines of the entries that are at least as grave as the threshold. -/
def lines (threshold : Level) (entries : List Entry) : List String :=
  (entries.filter (·.level.rank ≤ threshold.rank)).map Entry.line

end Log
end Rollup
