import TvmDebug.DebugInfo.Form
import TvmDebug.ExitCode.Basic
/-!
# The JSON form of exit codes

* `ExitCode.toJson` and `ExitCode.ofJson?`: an exit code without an instruction has no `info`.
-/
set_option autoImplicit false

namespace TvmDebug.ExitCode

open Json

def toJson (e : ExitCode) : Json :=
  ofFields ([("num", ofInt e.num.toInt), ("description", ofString e.description)] ++
    (e.info.map fun i => ("info", i.toJson)).toList)

def ofJson? (j : Json) : Option ExitCode := do
  let [num, description, info] ← j.fields? ["num", "description", "info"] | none
  some {
    num := ← required int32? num
    description := ← required text? description
    info := ← nullable Instruction.ofJson? info }

end TvmDebug.ExitCode
