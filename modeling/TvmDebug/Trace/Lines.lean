import TvmDebug.SortedMap
import TvmDebug.Trace.Basic
/-!
# The steps that executed a line

* `asmLines steps`: the 1-based assembly line of every step.
* `LineIndex`: for each line that some step executed, the positions of those steps, ascending.
* `lineIndex steps`: the index of a list of steps.
-/
set_option autoImplicit false

namespace TvmDebug

/-- Positions of steps, listed under the line they executed. -/
abbrev LineIndex := SortedMap UInt32 (List Nat)

def asmLines (steps : List Step) : Except Fault (List (Option UInt32)) := steps.mapM Step.asmLine

/-- The entries of a list that are present, with their positions. -/
def located {α : Type} (xs : List (Option α)) : List (α × Nat) :=
  xs.zipIdx.filterMap fun (x, i) => x.map (·, i)

/-- Positions are stored from the last to the first, each in front of those of its line. -/
def LineIndex.ofLocated (hits : List (UInt32 × Nat)) : LineIndex :=
  hits.foldr (fun (line, i) index => index.upsert line fun is => i :: is.getD []) SortedMap.empty

def lineIndex (steps : List Step) : Except Fault LineIndex :=
  (asmLines steps).map fun lines => LineIndex.ofLocated (located lines)

def LineIndex.positions (index : LineIndex) (line : UInt32) : List Nat := (index.find? line).getD []

end TvmDebug
