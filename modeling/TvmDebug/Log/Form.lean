import TvmDebug.Log.Basic
import TvmDebug.Trace.Form
/-!
# The JSON form of log lines

* `LogLine.toJson`: the written form; the kind of a line is its field `$`.
* `LogLine.ofJson?`: reading. The message of an exception may be missing. As for stack elements,
  all of the text of a line counts.
-/
set_option autoImplicit false

namespace TvmDebug.LogLine

open Json

def toJson : LogLine → Json
  | .location hash offset =>
    ofFields [("$", ofString "VmLoc"), ("hash", ofString hash), ("offset", ofNat offset.toNat)]
  | .exception errno message =>
    ofFields [("$", ofString "VmExceptionHandler"), ("errno", ofInt errno.toInt),
      ("message", ofString message)]
  | .unknown text => ofFields [("$", ofString "VmUnknown"), ("text", ofString text)]

def decode? (j : Json) : Option LogLine := do
  let (kind, fields) ← j.tagged? "$" text?
  match kind with
  | "VmLoc" =>
    let [hash, offset] ← fields.fields? ["hash", "offset"] | none
    some (.location (← required text? hash) (← required uint32? offset))
  | "VmExceptionHandler" =>
    let [errno, message] ← fields.fields? ["errno", "message"] | none
    some (.exception (← required int32? errno) (← orElse "" text? message))
  | "VmUnknown" =>
    let [text] ← fields.fields? ["text"] | none
    (required text? text).map .unknown
  | _ => none

def ofJson? (room : Nat) (j : Json) : Option LogLine :=
  if j.depth ≤ room && j.isSpelledOut then decode? j else none

end TvmDebug.LogLine
