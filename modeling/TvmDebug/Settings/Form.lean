import TvmDebug.Json.Fields
import TvmDebug.Json.Writer
import TvmDebug.Settings.Basic
/-!
# The JSON form of settings

* `Settings.toJson` and `Settings.ofJson?`: every field may be missing and then has its default.
-/
set_option autoImplicit false

namespace TvmDebug

open Json

namespace CorrelationSettings

def toJson (s : CorrelationSettings) : Json :=
  ofFields [("palette", ofList ofString s.palette),
    ("stdlib_markers", ofList ofString s.stdlibMarkers)]

def ofJson? (j : Json) : Option CorrelationSettings := do
  let [palette, markers] ← j.fields? ["palette", "stdlib_markers"] | none
  some {
    palette := ← orElse defaultPalette (list? text?) palette
    stdlibMarkers := ← orElse TvmDebug.stdlibMarkers (list? text?) markers }

end CorrelationSettings

namespace StepperSettings

def toJson (s : StepperSettings) : Json :=
  ofFields [("transition_reset_ms", ofNat s.transitionResetMs.toNat),
    ("primary_source_file", ofString s.primarySourceFile)]

def ofJson? (j : Json) : Option StepperSettings := do
  let [reset, file] ← j.fields? ["transition_reset_ms", "primary_source_file"] | none
  some {
    transitionResetMs := ← orElse defaultResetMs uint64? reset
    primarySourceFile := ← orElse defaultSourceFile text? file }

end StepperSettings

namespace Settings

def toJson (s : Settings) : Json :=
  ofFields [("correlation", s.correlation.toJson), ("stepper", s.stepper.toJson)]

def ofJson? (j : Json) : Option Settings := do
  let [correlation, stepper] ← j.fields? ["correlation", "stepper"] | none
  some {
    correlation := ← orElse {} CorrelationSettings.ofJson? correlation
    stepper := ← orElse {} StepperSettings.ofJson? stepper }

end Settings

end TvmDebug
