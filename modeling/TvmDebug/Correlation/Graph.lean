import TvmDebug.DebugInfo.Basic
/-!
# Source lines and assembly lines of one contract

* `ascending`: the members of a list of lines, each once, by ascending line.
* `Edge`, `LineGraph`: links between source lines and assembly lines. `Node`: a line of either side.
* `LineGraph.asmLinesFor` and `LineGraph.funcLinesFor`: the lines linked to a line, from either
  side; `LineGraph.neighbors` for a line of either side; `LineGraph.funcToAsm` and
  `LineGraph.asmToFunc` list them for every line that has one.
* `LineGraph.ofDebugInfo`: the links that debug information makes. A section links the line it was
  compiled from to the lines it was compiled to. A section without instructions waits for the next
  section that has some, and is linked to the lines of that one.
-/
set_option autoImplicit false

namespace TvmDebug

/-! ## Ascending lists of lines -/

def insertLine (l : UInt32) : List UInt32 → List UInt32
  | [] => [l]
  | l' :: ls => if l < l' then l :: l' :: ls else if l = l' then l' :: ls else l' :: insertLine l ls

/-- The members of a list, each once, by ascending line. -/
def ascending (ls : List UInt32) : List UInt32 := ls.foldr insertLine []

/-! ## Links -/

/-- A source line and an assembly line that belong together. -/
structure Edge where
  func : UInt32
  asm : UInt32
deriving DecidableEq

/-- A line of one of the two sides. -/
inductive Node where
  | func (line : UInt32)
  | asm (line : UInt32)
deriving DecidableEq

/-- The links of one contract. -/
structure LineGraph where
  edges : List Edge

namespace LineGraph

def empty : LineGraph := ⟨[]⟩

def funcLines (g : LineGraph) : List UInt32 := ascending (g.edges.map (·.func))

def asmLines (g : LineGraph) : List UInt32 := ascending (g.edges.map (·.asm))

def asmLinesFor (g : LineGraph) (func : UInt32) : List UInt32 :=
  ascending ((g.edges.filter fun e => e.func == func).map (·.asm))

def funcLinesFor (g : LineGraph) (asm : UInt32) : List UInt32 :=
  ascending ((g.edges.filter fun e => e.asm == asm).map (·.func))

/-- The lines linked to a line, on the other side and ascending. -/
def neighbors (g : LineGraph) : Node → List Node
  | .func f => (g.asmLinesFor f).map .asm
  | .asm a => (g.funcLinesFor a).map .func

def funcToAsm (g : LineGraph) : List (UInt32 × List UInt32) :=
  g.funcLines.map fun f => (f, g.asmLinesFor f)

def asmToFunc (g : LineGraph) : List (UInt32 × List UInt32) :=
  g.asmLines.map fun a => (a, g.funcLinesFor a)

/-! ## The links that debug information makes -/

/-- Every source line is linked to every assembly line. -/
def join (funcs asms : List UInt32) : List Edge :=
  asms.flatMap fun a => funcs.map fun f => ⟨f, a⟩

/-- The links of sections given in order, where the sections of the lines `waiting` had no
instructions. A section whose instructions are nowhere printed ends the wait without a link. -/
def edgesOf (markers : List String) (instructions : SectionInstructions) :
    (waiting : List UInt32) → List (SectionId × SourceLocation) → Except Fault (List Edge)
  | _, [] => .ok []
  | waiting, (id, location) :: rest =>
    match (instructions.find? id).getD [] with
    | [] =>
      let waiting := if location.isExcluded markers then waiting else waiting ++ [location.line]
      edgesOf markers instructions waiting rest
    | i :: is => do
      let asms ← Instruction.asmLines (i :: is)
      let edges ← edgesOf markers instructions [] rest
      .ok (join (location.line :: waiting) asms ++ edges)

def ofDebugInfo (markers : List String) (mapping : FuncMapping)
    (instructions : SectionInstructions) : Except Fault LineGraph :=
  (edgesOf markers instructions [] mapping.entries).map LineGraph.mk

end LineGraph

end TvmDebug
