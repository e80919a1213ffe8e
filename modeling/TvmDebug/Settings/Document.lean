import TvmDebug.Settings.Basic
import TvmDebug.Text.Digit
import TvmDebug.Toml.Reader
import TvmDebug.Toml.Writer
/-!
# Settings as a TOML document

* `Settings.ofDocument?`: the settings of a document. A setting that is not given has its default,
  and keys that are no settings do not count. A list may stand for a table: it gives the settings
  of the table in order.
* `Settings.toDocument`: the text of a document that gives every setting.
-/
set_option autoImplicit false

namespace TvmDebug

/-! ## Reading -/

namespace Toml

def text? : Toml → Option String
  | .string s => some s
  | _ => none

def uint64? : Toml → Option UInt64
  | .integer (some n) => if 0 ≤ n then Text.toUInt64? n.toNat else none
  | _ => none

def texts? : Toml → Option (List String)
  | .array items => items.mapM text?
  | _ => none

/-- The settings of a table by their names; the numbers in the rest of the table must be
known. A list gives the settings in order, and what follows them is not looked at. A date is a table
in which no setting is given. -/
def settings? (names : List String) : Toml → Option (List (Option Toml))
  | .table _ entries =>
    if areEntriesDefinite (entries.filter fun e => !names.contains e.1) then
      some (names.map fun name => entries.lookup name)
    else none
  | .array items => some (names.zipIdx.map fun (_, i) => items[i]?)
  | .tables elements =>
    some (names.zipIdx.map fun (_, i) => (elements.reverse[i]?).map (.table .header))
  | .datetime => some (names.map fun _ => none)
  | _ => none

/-- A setting that is not given has the value `d`. -/
def orElse {α : Type} (d : α) (f : Toml → Option α) : Option Toml → Option α
  | none => some d
  | some v => f v

end Toml

open Toml

def CorrelationSettings.ofToml? (v : Toml) : Option CorrelationSettings := do
  let [palette, markers] ← settings? ["palette", "stdlib_markers"] v | none
  some {
    palette := ← orElse defaultPalette texts? palette
    stdlibMarkers := ← orElse TvmDebug.stdlibMarkers texts? markers }

def StepperSettings.ofToml? (v : Toml) : Option StepperSettings := do
  let [reset, file] ← settings? ["transition_reset_ms", "primary_source_file"] v | none
  some {
    transitionResetMs := ← orElse defaultResetMs uint64? reset
    primarySourceFile := ← orElse defaultSourceFile text? file }

namespace Settings

def ofEntries? (entries : Toml.Entries) : Option Settings := do
  let [correlation, stepper] ← settings? ["correlation", "stepper"] (.table .header entries) | none
  some {
    correlation := ← orElse {} CorrelationSettings.ofToml? correlation
    stepper := ← orElse {} StepperSettings.ofToml? stepper }

def ofDocument? (text : String) : Option Settings := (Toml.ofText? text).bind ofEntries?

/-! ## Writing -/

def toDocument (s : Settings) : String :=
  "[correlation]\n" ++
  line "palette" (writeList s.correlation.palette) ++
  line "stdlib_markers" (writeList s.correlation.stdlibMarkers) ++
  "\n[stepper]\n" ++
  line "transition_reset_ms" (String.ofList (Text.digits s.stepper.transitionResetMs.toNat)) ++
  line "primary_source_file" (quote s.stepper.primarySourceFile)

end Settings

end TvmDebug
