import TvmDebug.Correlation.Group
import TvmDebug.DebugInfo.Form
import TvmDebug.ExitCode.Resolve
import TvmDebug.Json.Reader
import TvmDebug.Stepper.Source
import TvmDebug.Text.Quoted
/-!
# Session bundles

A bundle is one JSON file with all that a debugging session needs.

* `Session`: a trace, and the log and the debug information recorded with it, if there are any.
* `Session.load`: the session of a file, given by its content.
* `Session.exitCode`, `Session.correlation`, `Session.stepper`: what is derived from a session.
* `SessionError`: what can go wrong, with the words for it.
-/
set_option autoImplicit false

namespace TvmDebug

/-! ## Errors -/

inductive SessionError where
  | unreadable (path : String)
  | malformed (path : String)
  | missing (part : String)
  | stepOutOfRange (step total : Nat)
deriving DecidableEq

def SessionError.message : SessionError → String
  | .unreadable path => "failed to read session bundle " ++ Text.quotePath path
  | .malformed path => "invalid session bundle " ++ Text.quotePath path
  | .missing part => "session bundle has no `" ++ part ++ "`"
  | .stepOutOfRange step total =>
    "step " ++ toString step ++ " is out of range, the trace has " ++ toString total ++ " steps"

/-! ## Bundles -/

/-- A recorded execution. -/
structure Session where
  trace : Trace
  vmLog : Option String
  cells : Option CellMap
  mapping : Option FuncMapping
  instructions : Option SectionInstructions

namespace Session

open Json

def ofJson? (room : Nat) (j : Json) : Option Session := do
  let [trace, log, cells, mapping, instructions] ←
    j.fields? ["trace", "vm_log", "cell_mapping", "func_mapping", "debug_sections"] | none
  some {
    trace := ← required (Trace.ofJson? (room - 1)) trace
    vmLog := ← nullable text? log
    cells := ← nullable CellMap.ofJson? cells
    mapping := ← nullable FuncMapping.ofJson? mapping
    instructions := ← nullable SectionInstructions.ofJson? instructions }

/-- The session of a file; a missing file has no content. -/
def load (path : String) (content : Option ByteArray) : Except SessionError Session :=
  match content.bind String.fromUTF8? with
  | none => .error (.unreadable path)
  | some text =>
    match (Json.ofText? text).bind (ofJson? textRoom) with
    | none => .error (.malformed path)
    | some session => .ok session

/-! ## What is derived -/

/-- A part of the bundle that is needed. -/
def part {α : Type} (name : String) : Option α → Except SessionError α
  | some x => .ok x
  | none => .error (.missing name)

def exitCode (s : Session) : Except SessionError (Option ExitCode) := do
  let log ← part "vm_log" s.vmLog
  .ok (findExitCode log (s.cells.getD CellMap.empty))

def debugInfo (s : Session) : Except SessionError (FuncMapping × SectionInstructions) := do
  let mapping ← part "func_mapping" s.mapping
  let instructions ← part "debug_sections" s.instructions
  .ok (mapping, instructions)

/-- Every part of a session is one input. -/
def shared {α : Type} (x : α) : Shared α := ⟨0, x⟩

/-- A stepper at the first step of the session. -/
def stepper (s : Session) (settings : StepperSettings) : Except Fault SourceStepper := do
  let stepper ← (SourceStepper.new settings).setTrace (some (shared s.trace))
  stepper.setDebugInfo (s.mapping.map shared) (s.instructions.map shared)

end Session

end TvmDebug
