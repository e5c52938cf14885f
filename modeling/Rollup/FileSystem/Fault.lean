/-
# Why a file operation fails
-/

import Rollup.Decimal.Integer
import Rollup.Text.Quoted

namespace Rollup

/-- A path as it is written. -/
abbrev Path := Bytes

/-- Failures that the system reports by number. -/
inductive SystemError where
  | noEntry
  | inputOutput
  | noDevice
  | busy
  | fileExists
  | notDirectory
  | isDirectory
  | invalid
  | noSpace
  | nameTooLong
  | tooManyLinks
  deriving DecidableEq, Repr

namespace SystemError

def number : SystemError → Nat
  | .noEntry => 2
  | .inputOutput => 5
  | .noDevice => 6
  | .busy => 16
  | .fileExists => 17
  | .notDirectory => 20
  | .isDirectory => 21
  | .invalid => 22
  | .noSpace => 28
  | .nameTooLong => 36
  | .tooManyLinks => 40

def text : SystemError → String
  | .noEntry => "No such file or directory"
  | .inputOutput => "Input/output error"
  | .noDevice => "No such device or address"
  | .busy => "Device or resource busy"
  | .fileExists => "File exists"
  | .notDirectory => "Not a directory"
  | .isDirectory => "Is a directory"
  | .invalid => "Invalid argument"
  | .noSpace => "No space left on device"
  | .nameTooLong => "File name too long"
  | .tooManyLinks => "Too many levels of symbolic links"

end SystemError

/-- Why a file operation fails. -/
inductive Fault where
  | system (error : SystemError)
  /-- The path holds a NUL and so names nothing. -/
  | nulInPath
  /-- The path has no directory that a file could be created in. -/
  | noParent
  | denied
  /-- A temporary file could not be created. -/
  | temporary (fault : Fault) (path : Path)
  deriving DecidableEq, Repr

def Fault.message : Fault → String
  | .system error => error.text ++ " (os error " ++ Decimal.natText error.number ++ ")"
  | .nulInPath => "file name contained an unexpected NUL byte"
  | .noParent => "cannot determine parent directory"
  | .denied => "permission denied"
  | .temporary fault path => fault.message ++ " at path " ++ Text.quotedBytes path

end Rollup
