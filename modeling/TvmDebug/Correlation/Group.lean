import TvmDebug.Correlation.Graph
import TvmDebug.Settings.Basic
/-!
# Highlight groups

Lines that are linked, directly or over other lines, are shown in one color.

* `Cluster`: some source lines and the assembly lines that belong with them.
* `Search`: a search for the lines that belong with one line, breadth first. `Search.clusters`: such
  a search from each source line that none before has met.
* `Correlation.build`: the link graph of a contract with its groups, by ascending first source line.
-/
set_option autoImplicit false

namespace TvmDebug

/-! ## Clusters -/

/-- Lines of both sides that belong together, ascending. -/
structure Cluster where
  funcLines : List UInt32
  asmLines : List UInt32
deriving DecidableEq

namespace Cluster

def empty : Cluster := ⟨[], []⟩

/-- The cluster with one more line. -/
def insert (c : Cluster) : Node → Cluster
  | .func f => { c with funcLines := insertLine f c.funcLines }
  | .asm a => { c with asmLines := insertLine a c.asmLines }

def isTwoSided (c : Cluster) : Bool := !c.funcLines.isEmpty && !c.asmLines.isEmpty

end Cluster

/-! ## Searching for linked lines -/

/-- How far a search has come: the lines still to look from, the lines that this search or one
before it has met, and the lines looked from. -/
structure Search where
  queue : List Node
  visited : List Node
  cluster : Cluster

namespace Search

def start (visited : List Node) (n : Node) : Search := ⟨[n], n :: visited, Cluster.empty⟩

/-- A line met for the first time is put at the end of the queue. -/
def meet (s : Search) (n : Node) : Search :=
  if s.visited.contains n then s
  else { s with queue := s.queue ++ [n], visited := n :: s.visited }

/-- Looks from the first line of the queue. -/
def step? (neighbors : Node → List Node) (s : Search) : Option Search :=
  match s.queue with
  | [] => none
  | n :: queue =>
    some ((neighbors n).foldl meet { s with queue := queue, cluster := s.cluster.insert n })

/-- Looks from one line after the other until the queue is empty, but not from more than `most`. -/
def run (neighbors : Node → List Node) : (most : Nat) → Search → Search
  | 0, s => s
  | most + 1, s =>
    match s.step? neighbors with
    | some s => run neighbors most s
    | none => s

/-- The cluster of each source line that was not met before. A cluster with lines of one side only
would be left out. -/
def clusters (neighbors : Node → List Node) (most : Nat) :
    (visited : List Node) → (lines : List UInt32) → List Cluster
  | _, [] => []
  | visited, f :: fs =>
    if visited.contains (.func f) then clusters neighbors most visited fs
    else
      let s := (start visited (.func f)).run neighbors most
      if s.cluster.isTwoSided then s.cluster :: clusters neighbors most s.visited fs
      else clusters neighbors most s.visited fs

end Search

/-- The clusters of a graph, by ascending first source line. No search looks from more lines than
the graph has. -/
def LineGraph.clusters (g : LineGraph) : List Cluster :=
  Search.clusters g.neighbors (g.funcLines.length + g.asmLines.length) [] g.funcLines

/-! ## Groups -/

structure MappingGroup where
  funcLines : List UInt32
  asmLines : List UInt32
  color : String
  className : String
deriving DecidableEq

/-- One side of a group, as one editor shows it. -/
structure HighlightGroup where
  lines : List UInt32
  color : String
  className : String
deriving DecidableEq

/-- Style classes repeat after this many groups. -/
def classCount : Nat := 10

def groupClass (i : Nat) : String := "source-map-group-" ++ toString (i % classCount)

/-- Colors repeat in order; a palette without colors stands for the default one. -/
def groupColor (palette : List String) (i : Nat) : String :=
  let colors := if palette.isEmpty then defaultPalette else palette
  colors.getD (i % colors.length) ""

def MappingGroup.ofCluster (palette : List String) (c : Cluster) (i : Nat) : MappingGroup :=
  ⟨c.funcLines, c.asmLines, groupColor palette i, groupClass i⟩

/-! ## The correlation of a contract -/

structure Correlation where
  graph : LineGraph
  groups : List MappingGroup

namespace Correlation

def ofGraph (palette : List String) (g : LineGraph) : Correlation :=
  ⟨g, g.clusters.zipIdx.map fun (c, i) => MappingGroup.ofCluster palette c i⟩

def build (mapping : FuncMapping) (instructions : SectionInstructions)
    (settings : CorrelationSettings) : Except Fault Correlation :=
  (LineGraph.ofDebugInfo settings.stdlibMarkers mapping instructions).map
    (ofGraph settings.palette)

def funcHighlights (c : Correlation) : List HighlightGroup :=
  c.groups.map fun g => ⟨g.funcLines, g.color, g.className⟩

def asmHighlights (c : Correlation) : List HighlightGroup :=
  c.groups.map fun g => ⟨g.asmLines, g.color, g.className⟩

end Correlation

end TvmDebug
