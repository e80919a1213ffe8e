import TvmDebug.Stepper.Condense
import TvmDebug.Stepper.Trace
/-!
# The cursor over the source lines of a trace

* `SourceStepper`: a trace stepper with a second cursor, over the source lines that the trace
  executes. While source stepping is on and there are such lines, moves follow that cursor and the
  selected step goes with it; otherwise the trace stepper moves.
* `SourceStepper.refresh`: the source lines are found again when an input of theirs has changed, and
  the cursor then goes back to the first of them.
* `SourceStepper.Op`, `SourceStepper.apply`: what can be done with a stepper, its answer and the
  stepper after.
-/
set_option autoImplicit false

namespace TvmDebug

/-- What the source lines of a trace are found from. -/
structure SourceKey where
  trace : Nat
  mapping : Nat
  instructions : Nat
  file : String
deriving DecidableEq

/-- The cursor over source lines, on top of the cursor over steps. -/
structure SourceStepper where
  inner : TraceStepper
  enabled : Bool
  primaryFile : String
  mapping : Option (Shared FuncMapping)
  instructions : Option (Shared SectionInstructions)
  found : Memo SourceKey (List SourceStop)
  cursor : Nat

namespace SourceStepper

def new (settings : StepperSettings) : SourceStepper :=
  ⟨TraceStepper.new settings, false, settings.primarySourceFile, none, none, Memo.empty, 0⟩

/-! ## What a stepper shows -/

/-- The source lines to step over; none while source stepping is off or lacks an input. -/
def stops (s : SourceStepper) : List SourceStop := s.found.current.getD []

def sourceLine (s : SourceStepper) : Option UInt32 := (s.stops[s.cursor]?).map (·.line)

/-- Moves follow the source lines. -/
def isSourceMode (s : SourceStepper) : Bool := s.enabled && !s.stops.isEmpty

def selected (s : SourceStepper) : Nat := s.inner.selected

def current (s : SourceStepper) : Option Step := s.inner.current

def stack (s : SourceStepper) : List StackElement := s.inner.stack

def total (s : SourceStepper) : Nat := s.inner.total

def usedGas (s : SourceStepper) : UInt64 := s.inner.usedGas

def highlightLine (s : SourceStepper) : Except Fault (Option UInt32) := s.inner.highlightLine

def transition (s : SourceStepper) : Option Transition := s.inner.transition

def canPrev (s : SourceStepper) : Bool :=
  if s.isSourceMode then decide (0 < s.cursor) else s.inner.canPrev

def canNext (s : SourceStepper) : Bool :=
  if s.isSourceMode then decide (s.cursor + 1 < s.stops.length) else s.inner.canNext

/-! ## The two cursors together -/

/-- Selects the step that stands for the source line under the cursor. -/
def sync (s : SourceStepper) : SourceStepper :=
  match s.stops[s.cursor]? with
  | some stop => { s with inner := (s.inner.select? stop.stepIndex).getD s.inner }
  | none => s

/-- Puts the cursor on the source line that the selected step stands for, if it stands for one. -/
def follow (s : SourceStepper) : SourceStepper :=
  match s.stops.findIdx? fun stop => stop.stepIndex == s.inner.selected with
  | some k => { s with cursor := k }
  | none => s

/-! ## Inputs -/

/-- The inputs of the source lines, when source stepping is on and all are held. -/
def inputs? (s : SourceStepper) :
    Option (Shared Trace × Shared FuncMapping × Shared SectionInstructions) := do
  let trace ← s.inner.trace
  let mapping ← s.mapping
  let instructions ← s.instructions
  if s.enabled then some (trace, mapping, instructions) else none

/-- Finds the source lines again if an input has changed, and forgets them if one is missing. -/
def refresh (s : SourceStepper) : Except Fault SourceStepper :=
  match s.inputs? with
  | none =>
    .ok (if s.found.isFilled then { s with found := s.found.reset, cursor := 0 } else s)
  | some (trace, mapping, instructions) =>
    let key := ⟨trace.id, mapping.id, instructions.id, s.primaryFile⟩
    if (s.found.get? key).isSome then .ok s
    else do
      let (_, found) ← s.found.getOrComputeM key fun _ =>
        condense trace.value mapping.value instructions.value s.primaryFile
      .ok { s with found := found, cursor := 0 }.sync

def setEnabled (s : SourceStepper) (enabled : Bool) : Except Fault SourceStepper :=
  if s.enabled = enabled then .ok s else { s with enabled := enabled }.refresh

def setDebugInfo (s : SourceStepper) (mapping : Option (Shared FuncMapping))
    (instructions : Option (Shared SectionInstructions)) : Except Fault SourceStepper :=
  { s with mapping := mapping, instructions := instructions }.refresh

def setTrace (s : SourceStepper) (trace : Option (Shared Trace)) : Except Fault SourceStepper :=
  { s with inner := s.inner.setTrace trace }.refresh

def setPrimaryFile (s : SourceStepper) (file : String) : Except Fault SourceStepper :=
  { s with primaryFile := file }.refresh

/-! ## Moves over source lines -/

def moveTo? (s : SourceStepper) (k : Nat) (t : Transition) : Option SourceStepper :=
  if k < s.stops.length ∧ k ≠ s.cursor then
    let s := { s with cursor := k }.sync
    some { s with inner := s.inner.mark t }
  else none

def moveFunc? (s : SourceStepper) : Move → Option SourceStepper
  | .prev => if 0 < s.cursor then s.moveTo? (s.cursor - 1) .button else none
  | .next => s.moveTo? (s.cursor + 1) .button
  | .first => s.moveTo? 0 .button
  | .last => if 0 < s.stops.length then s.moveTo? (s.stops.length - 1) .button else none

/-- Puts the cursor on a source line given by its number. -/
def findFunc? (s : SourceStepper) (line : UInt32) : Option SourceStepper :=
  (s.stops.findIdx? fun stop => stop.line == line).map fun k =>
    let s := { s with cursor := k }.sync
    { s with inner := s.inner.mark .click }

/-! ## Moves of either kind -/

def withInner (s : SourceStepper) (inner : TraceStepper) : SourceStepper := { s with inner := inner }

def move? (s : SourceStepper) (m : Move) : Option SourceStepper :=
  if s.isSourceMode then s.moveFunc? m else (s.inner.move? m).map s.withInner

def press? (s : SourceStepper) (key : Key) (focus : Focus) : Option SourceStepper :=
  (key.move? focus).bind s.move?

/-- Selects a step that executed a line; the source line goes with it. -/
def click (s : SourceStepper) (line : UInt32) : Except Fault (Bool × SourceStepper) :=
  (s.inner.click line).map fun (yes, inner) =>
    (yes, if yes then (s.withInner inner).follow else s.withInner inner)

def select? (s : SourceStepper) (i : Nat) : Option SourceStepper :=
  (s.inner.select? i).map fun inner => (s.withInner inner).follow

/-! ## Operations -/

inductive Op where
  | setTrace (trace : Option (Shared Trace))
  | setDebugInfo (mapping : Option (Shared FuncMapping))
      (instructions : Option (Shared SectionInstructions))
  | setEnabled (enabled : Bool)
  | setPrimaryFile (file : String)
  | move (m : Move)
  | moveFunc (m : Move)
  | findFunc (line : UInt32)
  | select (i : Nat)
  | click (line : UInt32)
  | press (key : Key) (focus : Focus)

inductive Answer where
  | nothing
  | moved (yes : Bool)
deriving DecidableEq

/-- The answer of a move, with the stepper left as it was when the move is refused. -/
def settle (s : SourceStepper) (moved : Option SourceStepper) : Answer × SourceStepper :=
  (.moved moved.isSome, moved.getD s)

def apply (s : SourceStepper) : Op → Except Fault (Answer × SourceStepper)
  | .setTrace trace => (s.setTrace trace).map (.nothing, ·)
  | .setDebugInfo mapping instructions => (s.setDebugInfo mapping instructions).map (.nothing, ·)
  | .setEnabled enabled => (s.setEnabled enabled).map (.nothing, ·)
  | .setPrimaryFile file => (s.setPrimaryFile file).map (.nothing, ·)
  | .move m => .ok (s.settle (s.move? m))
  | .moveFunc m => .ok (s.settle (s.moveFunc? m))
  | .findFunc line => .ok (s.settle (s.findFunc? line))
  | .select i => .ok (s.settle (s.select? i))
  | .click line => (s.click line).map fun (yes, s) => (.moved yes, s)
  | .press key focus => .ok (s.settle (s.press? key focus))

def run (s : SourceStepper) (ops : List Op) : Except Fault SourceStepper :=
  ops.foldlM (fun s op => (s.apply op).map Prod.snd) s

end SourceStepper

end TvmDebug
