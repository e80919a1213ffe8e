import TvmDebug.Correlation.Group
import TvmDebug.Json.Writer
/-!
# The JSON form of highlight groups

* `MappingGroup.toJson`, `HighlightGroup.toJson`: the written forms.
-/
set_option autoImplicit false

namespace TvmDebug

open Json

def linesToJson (lines : List UInt32) : Json := ofList (fun line => ofNat line.toNat) lines

def MappingGroup.toJson (g : MappingGroup) : Json :=
  ofFields [("func_lines", linesToJson g.funcLines), ("asm_lines", linesToJson g.asmLines),
    ("color", ofString g.color), ("class_name", ofString g.className)]

def HighlightGroup.toJson (g : HighlightGroup) : Json :=
  ofFields [("lines", linesToJson g.lines), ("color", ofString g.color),
    ("class_name", ofString g.className)]

end TvmDebug
