/-!
# Faults

What ends a command before it can choose an exit code.
-/

namespace Dataflow

/-- Why a command ends without an exit code. -/
inductive Fault where
  /-- The selection of an analysis was left out. -/
  | noSelection
  /-- The limit on visits was left out. -/
  | noLimit
  /-- The output path was left out. -/
  | noOutput
  /-- An integer has too many digits to be written. -/
  | tooManyDigits
  /-- A path starts in the home of somebody who has none. -/
  | noHome
  /-- A path contains the null character. -/
  | nullInPath
  | nameTooLong
  | isDirectory
  /-- There is a file where the directory should be. -/
  | fileExists
  /-- There is a file further up. -/
  | notDirectory
deriving DecidableEq, Repr

/-- The description of a fault. -/
def Fault.message : Fault → String
  | noSelection => "no analysis is named"
  | noLimit => "no limit is given"
  | noOutput => "no output path is given"
  | tooManyDigits => "an option has too many digits to be written"
  | noHome => "there is no such home directory"
  | nullInPath => "a path contains the null character"
  | nameTooLong => "a file name is too long"
  | isDirectory => "the output path is a directory"
  | fileExists => "the directory of the output path is a file"
  | notDirectory => "the output path leads through a file"

end Dataflow
