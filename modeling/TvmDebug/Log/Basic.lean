/-!
# Lines of a verbose machine log

* `LogLine`: a line that names the code location entered, a line that names the exception being
  handled, or any other line.
-/
set_option autoImplicit false

namespace TvmDebug

inductive LogLine where
  | location (hash : String) (offset : UInt32)
  | exception (errno : Int32) (message : String)
  | unknown (text : String)
deriving DecidableEq

/-- An exception line without a message. -/
def LogLine.exceptionOf (errno : Int32) : LogLine := .exception errno ""

end TvmDebug
