import TvmDebug.DebugInfo.Basic
/-!
# Settings

* `CorrelationSettings`: the colors of highlight groups and the marks of library files.
* `StepperSettings`: how long a move stays marked and the file that source stepping follows.
* `Settings`: both. Every setting has a default.
-/
set_option autoImplicit false

namespace TvmDebug

/-- Ten colors that can be told apart. -/
def defaultPalette : List String :=
  ["#3b82f6", "#10b981", "#f59e0b", "#ef4444", "#8b5cf6", "#ec4899", "#14b8a6", "#f97316",
   "#6366f1", "#84cc16"]

/-- How long a move stays marked, in milliseconds. -/
def defaultResetMs : UInt64 := 300

def defaultSourceFile : String := "main.tolk"

structure CorrelationSettings where
  palette : List String := defaultPalette
  stdlibMarkers : List String := TvmDebug.stdlibMarkers
deriving DecidableEq

structure StepperSettings where
  transitionResetMs : UInt64 := defaultResetMs
  primarySourceFile : String := defaultSourceFile
deriving DecidableEq

structure Settings where
  correlation : CorrelationSettings := {}
  stepper : StepperSettings := {}
deriving DecidableEq

instance : Inhabited CorrelationSettings := ⟨{}⟩

instance : Inhabited StepperSettings := ⟨{}⟩

instance : Inhabited Settings := ⟨{}⟩

end TvmDebug
