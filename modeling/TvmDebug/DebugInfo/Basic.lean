import TvmDebug.Fault
import TvmDebug.SortedMap
import TvmDebug.Text.Search
/-!
# Debug information of a compiled contract

The compiler numbers debug sections. Two maps on section numbers describe a contract:

* `FuncMapping`: the source location that a section was compiled from.
* `SectionInstructions`: the assembly instructions that a section was compiled to.

Of a `SourceLocation`, `isExcluded` says that it lies in no file or in a standard library, and
`isInFile` that it lies in a file given by its path or by the end of its path.
-/
set_option autoImplicit false

namespace TvmDebug

/-! ## Source locations -/

/-- A place in a source file; `line` is 1-based. -/
structure SourceLocation where
  file : String
  line : UInt32
  pos : UInt32
  length : UInt32
deriving DecidableEq

namespace SourceLocation

def ofLine (file : String) (line : UInt32) : SourceLocation := ⟨file, line, 0, 0⟩

/-- A location without a file, or with a file whose name holds one of the markers. -/
def isExcluded (markers : List String) (l : SourceLocation) : Bool :=
  l.file.isEmpty || markers.any fun m => Text.occursIn m.toList l.file.toList

/-- The location's file is `file`, or ends with a slash and `file`. -/
def isInFile (file : String) (l : SourceLocation) : Bool :=
  l.file == file || decide ('/' :: file.toList <:+ l.file.toList)

end SourceLocation

/-- What marks the files of the standard libraries. -/
def stdlibMarkers : List String := ["@stdlib", "stdlib.fc", "@ton-stdlib"]

/-! ## Instructions -/

/-- A compiled instruction; `line` is its 0-based line in the assembly text, if it is printed. -/
structure Instruction where
  name : String
  line : Option UInt32
deriving DecidableEq

namespace Instruction

def atLine (name : String) (line : UInt32) : Instruction := ⟨name, some line⟩

def asmLine (i : Instruction) : Except Fault (Option UInt32) := oneBased? i.line

def asmLines (is : List Instruction) : Except Fault (List UInt32) :=
  (is.mapM asmLine).map fun lines => lines.filterMap id

end Instruction

/-! ## Sections -/

/-- Number of a debug section. -/
abbrev SectionId := UInt32

abbrev FuncMapping := SortedMap SectionId SourceLocation

abbrev SectionInstructions := SortedMap SectionId (List Instruction)

end TvmDebug
