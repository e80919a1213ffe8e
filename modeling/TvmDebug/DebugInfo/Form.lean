import TvmDebug.DebugInfo.CellMap
import TvmDebug.Trace.Form
/-!
# The JSON form of debug information

* `SourceLocation.toJson`, `FuncMapping.toJson`: locations and the locations of sections.
* `Instruction.toJson`, `SectionInstructions.toJson`: instructions and those of sections.
* `CellMap.toJson`: a cell map is the list of its entries.
* The `ofJson?` of each reads it. The position and the length of a location, and the name and the
  line of an instruction, may be missing.
-/
set_option autoImplicit false

namespace TvmDebug

open Json

/-! ## Locations -/

namespace SourceLocation

def toJson (l : SourceLocation) : Json :=
  ofFields [("file", ofString l.file), ("line", ofNat l.line.toNat), ("pos", ofNat l.pos.toNat),
    ("length", ofNat l.length.toNat)]

def ofJson? (j : Json) : Option SourceLocation := do
  let [file, line, pos, length] ← j.fields? ["file", "line", "pos", "length"] | none
  some {
    file := ← required text? file
    line := ← required uint32? line
    pos := ← orElse 0 uint32? pos
    length := ← orElse 0 uint32? length }

end SourceLocation

def sectionsToJson {α : Type} (f : α → Json) (m : SortedMap SectionId α) : Json :=
  ofFields (m.entries.map fun (id, x) => (String.ofList (Text.digits id.toNat), f x))

def FuncMapping.toJson : FuncMapping → Json := sectionsToJson SourceLocation.toJson

def FuncMapping.ofJson? : Json → Option FuncMapping := sections? SourceLocation.ofJson?

/-! ## Instructions -/

namespace Instruction

def toJson (i : Instruction) : Json := ofFields (("name", ofString i.name) :: locField i.line)

def ofJson? (j : Json) : Option Instruction := do
  let [name, loc] ← j.fields? ["name", "loc"] | none
  some {
    name := ← orElse "" text? name
    line := ← nullable lineOfJson? loc }

end Instruction

def SectionInstructions.toJson : SectionInstructions → Json :=
  sectionsToJson (ofList Instruction.toJson)

def SectionInstructions.ofJson? : Json → Option SectionInstructions :=
  sections? (list? Instruction.ofJson?)

/-! ## Cell maps -/

namespace CellMap

def entryToJson (e : CodeLocation × CellEntry) : Json :=
  ofFields [("hash", ofString e.1.hash), ("offset", ofNat e.1.offset.toNat),
    ("instructions", ofList Instruction.toJson e.2.instructions), ("index", ofNat e.2.index.toNat)]

def entryOfJson? (j : Json) : Option (CodeLocation × CellEntry) := do
  let [hash, offset, is, index] ← j.fields? ["hash", "offset", "instructions", "index"] | none
  let here : CodeLocation := {
    hash := ← required text? hash
    offset := ← required uint32? offset }
  let entry : CellEntry := {
    instructions := ← required (list? Instruction.ofJson?) is
    index := ← required uint64? index }
  some (here, entry)

def toJson (m : CellMap) : Json := ofList entryToJson m.toEntries

def ofJson? (j : Json) : Option CellMap := (list? entryOfJson? j).map ofEntries

end CellMap

end TvmDebug
