/-!
# The one failure of the trace and debug lookups

* `Fault.lineOverflow`: a 0-based line that has no 1-based number in 32 bits.
* `oneBased`: the 1-based number of a 0-based line.
-/
set_option autoImplicit false

namespace TvmDebug

/-- What can go wrong while a line number is computed. -/
inductive Fault where
  | lineOverflow
deriving DecidableEq, Repr

def Fault.message : Fault → String
  | .lineOverflow => "attempt to add with overflow"

/-- The 0-based line without a 1-based number. -/
def lastLine : UInt32 := 4294967295

/-- The 1-based number of a 0-based line. -/
def oneBased (line : UInt32) : Except Fault UInt32 :=
  if line = lastLine then .error .lineOverflow else .ok (line + 1)

/-- The 1-based number of a line that may be missing. -/
def oneBased? : Option UInt32 → Except Fault (Option UInt32)
  | none => .ok none
  | some line => (oneBased line).map some

end TvmDebug
