import TvmDebug.Correlation.Group
import TvmDebug.Memo
import TvmDebug.Shared
/-!
# The correlation as two editors show it

* `Viewport`, `scrollTarget`: the lines on screen, and the line to scroll to so that the first of
  some lines is among them.
* `CorrelationView`: the debug information held, the correlation built from it and the line under
  the pointer. The correlation is built again only for other inputs.
* `CorrelationView.Op`, `CorrelationView.apply`: what can be done with a view, and the view after.
-/
set_option autoImplicit false

namespace TvmDebug

/-! ## What is on screen -/

/-- The lines on screen, both ends included. -/
structure Viewport where
  first : UInt32
  last : UInt32

def Viewport.contains (v : Viewport) (line : UInt32) : Bool := v.first ≤ line && line ≤ v.last

/-- The smallest of some lines, unless it is on screen. -/
def scrollTarget (lines : List UInt32) (v : Viewport) : Option UInt32 :=
  lines.min?.filter fun line => !v.contains line

/-! ## The view -/

inductive HoveredLine where
  | func (line : UInt32)
  | asm (line : UInt32)
deriving DecidableEq

/-- Debug information, each part an input of its own. -/
structure DebugInputs where
  mapping : Shared FuncMapping
  instructions : Shared SectionInstructions

/-- What tells one pair of inputs from another. -/
def DebugInputs.key (i : DebugInputs) : Nat × Nat := (i.mapping.id, i.instructions.id)

def DebugInputs.of? (mapping : Option (Shared FuncMapping))
    (instructions : Option (Shared SectionInstructions)) : Option DebugInputs :=
  match mapping, instructions with
  | some m, some i => some ⟨m, i⟩
  | _, _ => none

/-- The state shared by a source editor and an assembly editor. -/
structure CorrelationView where
  settings : CorrelationSettings
  inputs : Option DebugInputs
  built : Memo (Nat × Nat) Correlation
  hovered : Option HoveredLine

namespace CorrelationView

def new (settings : CorrelationSettings) : CorrelationView :=
  ⟨settings, none, Memo.empty, none⟩

/-- Takes other inputs. Without both of them the view is empty; the pointer is forgotten unless the
inputs are those held. -/
def setInputs (v : CorrelationView) : Option DebugInputs → Except Fault CorrelationView
  | none => .ok { v with inputs := none, built := v.built.reset, hovered := none }
  | some i => do
    let hovered := if (v.built.get? i.key).isSome then v.hovered else none
    let (_, built) ← v.built.getOrComputeM i.key fun _ =>
      Correlation.build i.mapping.value i.instructions.value v.settings
    .ok { v with inputs := some i, built := built, hovered := hovered }

def correlation (v : CorrelationView) : Option Correlation :=
  if v.inputs.isSome then v.built.current else none

def hover (v : CorrelationView) (line : Option HoveredLine) : CorrelationView :=
  { v with hovered := line }

def funcHighlights (v : CorrelationView) : List HighlightGroup :=
  (v.correlation.map Correlation.funcHighlights).getD []

def asmHighlights (v : CorrelationView) : List HighlightGroup :=
  (v.correlation.map Correlation.asmHighlights).getD []

/-- The source lines to point out: the hovered one if it is linked, or those linked to it. -/
def funcHovered (v : CorrelationView) : List UInt32 :=
  match v.correlation, v.hovered with
  | some c, some (.func line) => if (c.graph.asmLinesFor line).isEmpty then [] else [line]
  | some c, some (.asm line) => c.graph.funcLinesFor line
  | _, _ => []

def asmHovered (v : CorrelationView) : List UInt32 :=
  match v.correlation, v.hovered with
  | some c, some (.asm line) => if (c.graph.funcLinesFor line).isEmpty then [] else [line]
  | some c, some (.func line) => c.graph.asmLinesFor line
  | _, _ => []

/-- Where the assembly editor scrolls while a source line is hovered. -/
def asmScrollTarget (v : CorrelationView) (viewport : Viewport) : Option UInt32 :=
  match v.correlation, v.hovered with
  | some c, some (.func line) => scrollTarget (c.graph.asmLinesFor line) viewport
  | _, _ => none

/-- Where the source editor scrolls while an assembly line is hovered. -/
def funcScrollTarget (v : CorrelationView) (viewport : Viewport) : Option UInt32 :=
  match v.correlation, v.hovered with
  | some c, some (.asm line) => scrollTarget (c.graph.funcLinesFor line) viewport
  | _, _ => none

/-! ## Operations -/

inductive Op where
  | setInputs (inputs : Option DebugInputs)
  | hover (line : Option HoveredLine)
  | scroll (viewport : Viewport)

/-- Looking for scroll targets leaves a view as it is. -/
def apply (v : CorrelationView) : Op → Except Fault CorrelationView
  | .setInputs inputs => v.setInputs inputs
  | .hover line => .ok (v.hover line)
  | .scroll _ => .ok v

def run (v : CorrelationView) (ops : List Op) : Except Fault CorrelationView := ops.foldlM apply v

end CorrelationView

end TvmDebug
