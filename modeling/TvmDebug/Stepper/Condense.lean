import TvmDebug.DebugInfo.Basic
import TvmDebug.Trace.Lines
/-!
# A trace as steps over source lines

* `lineOwners`: the assembly lines of all sections in order, each with its section. A line belongs
  to the first section that lists it.
* `SourceStop`: a source line and the step that stands for it.
* `condense`: the source lines that a trace executes, in the order of their first execution, each
  with the last step that executed it.
-/
set_option autoImplicit false

namespace TvmDebug

/-- A source line and the step that stands for it. -/
structure SourceStop where
  line : UInt32
  stepIndex : Nat
deriving DecidableEq

/-- The assembly lines of sections given in order, each with its section. -/
def ownersOf : List (SectionId × List Instruction) → Except Fault (List (UInt32 × SectionId))
  | [] => .ok []
  | (id, is) :: rest => do
    let lines ← Instruction.asmLines is
    let owners ← ownersOf rest
    .ok (lines.map (·, id) ++ owners)

def lineOwners (instructions : SectionInstructions) : Except Fault (List (UInt32 × SectionId)) :=
  ownersOf instructions.entries

/-- The line of `file` that an assembly line comes from: that of the section it belongs to. -/
def sourceLine? (owners : List (UInt32 × SectionId)) (mapping : FuncMapping) (file : String)
    (asm : UInt32) : Option UInt32 := do
  let id ← owners.lookup asm
  let location ← mapping.find? id
  if location.isInFile file then some location.line else none

/-- A stop takes the place of the one on its line, or comes last. -/
def putStop (stop : SourceStop) : List SourceStop → List SourceStop
  | [] => [stop]
  | s :: ss => if s.line = stop.line then stop :: ss else s :: putStop stop ss

/-- The stops of executed source lines given in order. -/
def collapse (hits : List (UInt32 × Nat)) : List SourceStop :=
  hits.foldl (fun stops (line, i) => putStop ⟨line, i⟩ stops) []

/-- The source lines of `file` that a trace executes. -/
def condense (trace : Trace) (mapping : FuncMapping) (instructions : SectionInstructions)
    (file : String) : Except Fault (List SourceStop) := do
  let owners ← lineOwners instructions
  let lines ← asmLines trace.steps
  .ok (collapse (located (lines.map fun line => line.bind (sourceLine? owners mapping file))))

end TvmDebug
