import TvmDebug.Memo
import TvmDebug.Settings.Basic
import TvmDebug.Shared
import TvmDebug.Trace.Gas
import TvmDebug.Trace.Lines
/-!
# The cursor over the steps of a trace

* `TraceStepper`: the trace held, the selected step and the mark of the last move.
* Moves answer `none` when they are refused: past either end, on an empty trace. A refused move
  changes nothing.
* Clicks are refused on a line that no step executed. The line has been looked up all the same, and
  the stepper keeps the index that took.
* `TraceStepper.Op`, `TraceStepper.apply`: what can be done with a stepper, its answer and the
  stepper after.
-/
set_option autoImplicit false

namespace TvmDebug

/-! ## What moves the cursor -/

/-- How the cursor came to where it is; only a hint for drawing. -/
inductive Transition where
  | button
  | click
deriving DecidableEq

inductive Move where
  | prev
  | next
  | first
  | last
deriving DecidableEq

inductive Key where
  | left
  | right
  | other
deriving DecidableEq

inductive Focus where
  | document
  | textInput
  | textArea
deriving DecidableEq

/-- Arrow keys move the cursor, except in a text field, where they belong to the text. -/
def Key.move? (key : Key) (focus : Focus) : Option Move :=
  match focus, key with
  | .document, .left => some .prev
  | .document, .right => some .next
  | _, _ => none

/-! ## The stepper -/

structure TraceStepper where
  trace : Option (Shared Trace)
  selected : Nat
  lastMove : Option Transition
  resetMs : UInt64
  index : Memo Nat LineIndex

namespace TraceStepper

def new (settings : StepperSettings) : TraceStepper :=
  ⟨none, 0, none, settings.transitionResetMs, Memo.empty⟩

/-- Takes another trace, and forgets all that belongs to the one before. -/
def setTrace (s : TraceStepper) (trace : Option (Shared Trace)) : TraceStepper :=
  if sameInput s.trace trace then s
  else { s with trace := trace, selected := 0, lastMove := none, index := s.index.reset }

def withTrace (trace : Shared Trace) (settings : StepperSettings) : TraceStepper :=
  (new settings).setTrace (some trace)

/-! ## What a stepper shows -/

def steps (s : TraceStepper) : List Step :=
  match s.trace with
  | some t => t.value.steps
  | none => []

def total (s : TraceStepper) : Nat := s.steps.length

def current (s : TraceStepper) : Option Step := s.steps[s.selected]?

def stack (s : TraceStepper) : List StackElement := (s.current.map Step.stack).getD []

def highlightLine (s : TraceStepper) : Except Fault (Option UInt32) :=
  match s.current with
  | some step => step.asmLine
  | none => .ok none

def usedGas (s : TraceStepper) : UInt64 := gasBefore s.steps s.selected

def canPrev (s : TraceStepper) : Bool := 0 < s.total && 0 < s.selected

def canNext (s : TraceStepper) : Bool := s.selected + 1 < s.total

/-- The mark of the last move. A delay of nothing ends it at once; any other delay is longer than
the use of a stepper. -/
def transition (s : TraceStepper) : Option Transition := if s.resetMs = 0 then none else s.lastMove

/-! ## Moves -/

def mark (s : TraceStepper) (t : Transition) : TraceStepper := { s with lastMove := some t }

def moveTo? (s : TraceStepper) (i : Nat) (t : Transition) : Option TraceStepper :=
  if i < s.total ∧ i ≠ s.selected then some ({ s with selected := i }.mark t) else none

/-- Selects a step of the trace without a mark. -/
def select? (s : TraceStepper) (i : Nat) : Option TraceStepper :=
  if i < s.total then some { s with selected := i } else none

def move? (s : TraceStepper) : Move → Option TraceStepper
  | .prev => if s.canPrev then s.moveTo? (s.selected - 1) .button else none
  | .next => if s.canNext then s.moveTo? (s.selected + 1) .button else none
  | .first => if s.canPrev then s.moveTo? 0 .button else none
  | .last => if s.canNext then s.moveTo? (s.total - 1) .button else none

def press? (s : TraceStepper) (key : Key) (focus : Focus) : Option TraceStepper :=
  (key.move? focus).bind s.move?

/-! ## Clicks on a line -/

/-- The positions of the steps that executed a line. -/
def stepsAt (s : TraceStepper) (line : UInt32) : Except Fault (List Nat × TraceStepper) :=
  match s.trace with
  | none => .ok ([], s)
  | some t => do
    let (index, memo) ← s.index.getOrComputeM t.id fun _ => lineIndex t.value.steps
    .ok (index.positions line, { s with index := memo })

/-- The position after `i` in a list of positions, and the first one for the last and for a
position that is not listed. -/
def after? (positions : List Nat) (i : Nat) : Option Nat :=
  match positions.idxOf? i with
  | some k => (positions[k + 1]?).or positions.head?
  | none => positions.head?

/-- Selects a step that executed a line. Repeated clicks go through all of them in turn. -/
def click (s : TraceStepper) (line : UInt32) : Except Fault (Bool × TraceStepper) := do
  let (positions, s) ← s.stepsAt line
  .ok (match after? positions s.selected with
    | some i => (true, { s with selected := i }.mark .click)
    | none => (false, s))

/-! ## Operations -/

inductive Op where
  | setTrace (trace : Option (Shared Trace))
  | move (m : Move)
  | select (i : Nat)
  | click (line : UInt32)
  | stepsAt (line : UInt32)
  | press (key : Key) (focus : Focus)

inductive Answer where
  | nothing
  | moved (yes : Bool)
  | steps (positions : List Nat)
deriving DecidableEq

/-- The answer of a move, with the stepper left as it was when the move is refused. -/
def settle (s : TraceStepper) (moved : Option TraceStepper) : Answer × TraceStepper :=
  (.moved moved.isSome, moved.getD s)

def apply (s : TraceStepper) : Op → Except Fault (Answer × TraceStepper)
  | .setTrace trace => .ok (.nothing, s.setTrace trace)
  | .move m => .ok (s.settle (s.move? m))
  | .select i => .ok (s.settle (s.select? i))
  | .click line => (s.click line).map fun (yes, s) => (.moved yes, s)
  | .stepsAt line => (s.stepsAt line).map fun (positions, s) => (.steps positions, s)
  | .press key focus => .ok (s.settle (s.press? key focus))

def run (s : TraceStepper) (ops : List Op) : Except Fault TraceStepper :=
  ops.foldlM (fun s op => (s.apply op).map Prod.snd) s

end TraceStepper

end TvmDebug
