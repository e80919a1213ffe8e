import TvmDebug.Settings.Document
import TvmDebug.Text.Quoted
/-!
# Settings files

* `Settings.load`: the settings of a file, given by its content; they must name at least one color.
* `Settings.save`: the content of the file that settings are saved to.
* `HomeFile`: the settings file in the home directory. `HomeFile.load` creates it with the default
  settings when it is missing and otherwise leaves it alone.
* `SettingsError`: what can go wrong, with the words for it.
-/
set_option autoImplicit false

namespace TvmDebug

/-! ## Errors -/

inductive SettingsError where
  | unreadable (path : String)
  | malformed
  | noColor
  | unwritable (path : String)
deriving DecidableEq

def SettingsError.message : SettingsError → String
  | .unreadable path => "Failed to read config file: " ++ Text.quotePath path
  | .malformed => "Failed to parse config file as TOML"
  | .noColor => "correlation.palette must contain at least one color"
  | .unwritable path => "Failed to write config file: " ++ Text.quotePath path

/-! ## One file -/

namespace Settings

/-- Settings must name at least one color. -/
def validate (s : Settings) : Except SettingsError Settings :=
  if s.correlation.palette.isEmpty then .error .noColor else .ok s

def parse (text : String) : Except SettingsError Settings :=
  match ofDocument? text with
  | some s => s.validate
  | none => .error .malformed

/-- The settings of a file; a missing file has no content. -/
def load (path : String) (content : Option ByteArray) : Except SettingsError Settings :=
  match content.bind String.fromUTF8? with
  | some text => parse text
  | none => .error (.unreadable path)

/-- The content of the file that settings are saved to, if the file can be written. -/
def save (s : Settings) (path : String) (writable : Bool) : Except SettingsError ByteArray :=
  if writable then .ok s.toDocument.toUTF8 else .error (.unwritable path)

end Settings

/-! ## The file in the home directory -/

structure HomeFile where
  path : String
  content : Option ByteArray

namespace HomeFile

/-- The settings of the file, which is created when it is missing. -/
def load (f : HomeFile) : Except SettingsError Settings × HomeFile :=
  match f.content with
  | none => (.ok {}, { f with content := some (Settings.toDocument {}).toUTF8 })
  | some content => (Settings.load f.path (some content), f)

def save (f : HomeFile) (s : Settings) : HomeFile :=
  { f with content := some s.toDocument.toUTF8 }

end HomeFile

end TvmDebug
