import TvmDebug.DebugInfo.CellMap
import TvmDebug.ExitCode.Basic
import TvmDebug.Log.Reader
/-!
# The exit code that a log tells

The exception of a log is the last one it handles; it was raised by the instruction at the last
code location before that line. Both are searched from the end of the log.

* `LogLine.raised?`: the exception that a line tells.
* `resolveExitCode`: the exit code of the lines of a log.
* `findExitCode`: the exit code of a log.
-/
set_option autoImplicit false

namespace TvmDebug

/-- What the machine prints when it runs out of gas without a handler. -/
def outOfGasText : String := "unhandled out-of-gas exception"

namespace LogLine

/-- The code and the message of the exception that a line tells. -/
def raised? : LogLine → Option (Int32 × String)
  | .exception errno message => some (errno, message)
  | .unknown text =>
    if Text.occursIn outOfGasText.toList text.toList then some (outOfGasCode, "") else none
  | .location .. => none

/-- The code location that a line names. -/
def codeLocation? : LogLine → Option CodeLocation
  | .location hash offset => some ⟨hash, offset⟩
  | _ => none

end LogLine

/-- The first present value of `f`, and what follows it. -/
def findRest? {α β : Type} (f : α → Option β) : List α → Option (β × List α)
  | [] => none
  | x :: xs => match f x with
    | some y => some (y, xs)
    | none => findRest? f xs

section Tables
variable {μ : Type} [CodeTable μ]

/-- The exit code of the lines of a log. -/
def resolveExitCode (lines : List LogLine) (table : μ) : Option ExitCode := do
  let ((num, message), before) ← findRest? LogLine.raised? lines.reverse
  let here ← before.findSome? LogLine.codeLocation?
  let description := if message.isEmpty then exitCodeDescription num else message
  some ⟨num, description, (CodeTable.resolve table here).bind CellEntry.instruction?⟩

def findExitCode (log : String) (table : μ) : Option ExitCode :=
  resolveExitCode (LogLine.ofLog log) table

end Tables

end TvmDebug
