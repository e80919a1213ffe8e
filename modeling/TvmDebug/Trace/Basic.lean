import TvmDebug.Fault
/-!
# Execution traces

* `StackElement`: an entry of a stack snapshot, and `StackElement.text`, how it is shown.
* `Step`: one executed instruction with the stack after it, its gas and its 0-based assembly line.
* `Trace`: the steps of one execution; the position of a step is its only identity.
* `Step.asmLine`: the 1-based assembly line of a step.
-/
set_option autoImplicit false

namespace TvmDebug

/-! ## Stack snapshots -/

/-- An entry of a stack snapshot. Integers and hashes keep the text they came in. -/
inductive StackElement where
  | null
  | nan
  | int (value : String)
  | cell (hash : String)
  | slice (hash : String)
  | builder (hash : String)
  | cont (name : String)
  | tuple (items : List StackElement)
  | unknown (text : String)
deriving Inhabited

namespace StackElement

mutual

/-- An entry as it is shown: cells, slices, builders and continuations carry a mark, the entries of
a tuple are separated by blanks. -/
def text : StackElement → String
  | .null => "null"
  | .nan => "NaN"
  | .int value => value
  | .cell hash => "C\x7b" ++ hash ++ "\x7d"
  | .slice hash => "CS\x7b" ++ hash ++ "\x7d"
  | .builder hash => "BC\x7b" ++ hash ++ "\x7d"
  | .cont name => "Cont\x7b" ++ name ++ "\x7d"
  | .tuple items => "[" ++ String.intercalate " " (texts items) ++ "]"
  | .unknown text => text

def texts : List StackElement → List String
  | [] => []
  | e :: es => text e :: texts es

end

end StackElement

/-! ## Steps -/

structure Step where
  instructionName : String
  stack : List StackElement
  gasCost : UInt64
  line : Option UInt32

namespace Step

/-- A step of which only the instruction and its gas are known. -/
def of (instructionName : String) (gasCost : UInt64) : Step := ⟨instructionName, [], gasCost, none⟩

def withLine (s : Step) (line : UInt32) : Step := { s with line := some line }

def withStack (s : Step) (stack : List StackElement) : Step := { s with stack := stack }

/-- The 1-based assembly line of a step that has a line. -/
def asmLine (s : Step) : Except Fault (Option UInt32) := oneBased? s.line

end Step

/-- The steps of one execution, in program order. -/
structure Trace where
  steps : List Step

end TvmDebug
