import TvmDebug.Json.Fields
import TvmDebug.Json.Writer
import TvmDebug.Trace.Basic
/-!
# The JSON form of traces

* `StackElement.toJson`, `Step.toJson`, `Trace.toJson`: the written form. A step without a line has
  no `loc`.
* `StackElement.ofJson?`, `Step.ofJson?`, `Trace.ofJson?`: reading. `room` is how many arrays and
  objects may be nested in what is read; only stack elements can use it up.
-/
set_option autoImplicit false

namespace TvmDebug

open Json

/-- How many arrays and objects may be nested in a text. -/
def textRoom : Nat := 127

/-! ## Lines -/

/-- A line as the value of a field `loc`. -/
def lineToJson (line : UInt32) : Json := ofFields [("line", ofNat line.toNat)]

def lineOfJson? (j : Json) : Option UInt32 := do
  let [line] ← j.fields? ["line"] | none
  required uint32? line

/-- The field `loc` of a line, if there is one. -/
def locField : Option UInt32 → List (String × Json)
  | none => []
  | some line => [("loc", lineToJson line)]

/-! ## Stack elements -/

namespace StackElement

mutual

def toJson : StackElement → Json
  | .null => ofFields [("type", ofString "null")]
  | .nan => ofFields [("type", ofString "nan")]
  | .int value => ofFields [("type", ofString "int"), ("value", ofString value)]
  | .cell hash => ofFields [("type", ofString "cell"), ("hash", ofString hash)]
  | .slice hash => ofFields [("type", ofString "slice"), ("hash", ofString hash)]
  | .builder hash => ofFields [("type", ofString "builder"), ("hash", ofString hash)]
  | .cont name => ofFields [("type", ofString "cont"), ("name", ofString name)]
  | .tuple items => ofFields [("type", ofString "tuple"), ("items", .array (itemsToJson items))]
  | .unknown text => ofFields [("type", ofString "unknown"), ("text", ofString text)]

def itemsToJson : List StackElement → List Json
  | [] => []
  | e :: es => toJson e :: itemsToJson es

end

def field? {α : Type} (name : String) (f : Json → Option α) (j : Json) : Option α := do
  let [x] ← j.fields? [name] | none
  required f x

def kinds : List String :=
  ["null", "nan", "int", "cell", "slice", "builder", "cont", "tuple", "unknown"]

/-- The kind of an element. In a tuple it may also be given by its place among the kinds. -/
def kind? (inTuple : Bool) : Json → Option String
  | .number n => if inTuple then (Json.number n).nat?.bind (kinds[·]?) else none
  | j => j.text?

/-- Reads an element; each tuple around what is read takes one unit of fuel. -/
def decode? : (fuel : Nat) → (inTuple : Bool) → Json → Option StackElement
  | 0, _, _ => none
  | fuel + 1, inTuple, j => do
    let (kind, fields) ← j.tagged? "type" (kind? inTuple)
    match kind with
    | "null" => fields.noFields?.map fun _ => .null
    | "nan" => fields.noFields?.map fun _ => .nan
    | "int" => (field? "value" text? fields).map .int
    | "cell" => (field? "hash" text? fields).map .cell
    | "slice" => (field? "hash" text? fields).map .slice
    | "builder" => (field? "hash" text? fields).map .builder
    | "cont" => (field? "name" text? fields).map .cont
    | "tuple" => (field? "items" (list? (decode? fuel true)) fields).map .tuple
    | "unknown" => (field? "text" text? fields).map .unknown
    | _ => none

/-- Reads an element. All of its text counts, also fields that have no meaning. -/
def ofJson? (room : Nat) (j : Json) : Option StackElement :=
  if j.depth ≤ room && j.isSpelledOut then decode? room false j else none

end StackElement

/-! ## Steps and traces -/

namespace Step

def toJson (s : Step) : Json :=
  ofFields ([("instructionName", ofString s.instructionName),
    ("stack", .array (StackElement.itemsToJson s.stack)),
    ("gasCost", ofNat s.gasCost.toNat)] ++ locField s.line)

def ofJson? (room : Nat) (j : Json) : Option Step := do
  let [name, stack, gas, loc] ← j.fields? ["instructionName", "stack", "gasCost", "loc"] | none
  some {
    instructionName := ← required text? name
    stack := ← orElse [] (list? (StackElement.ofJson? (room - 2))) stack
    gasCost := ← required uint64? gas
    line := ← nullable lineOfJson? loc }

end Step

namespace Trace

def toJson (t : Trace) : Json := ofFields [("steps", ofList Step.toJson t.steps)]

def ofJson? (room : Nat) (j : Json) : Option Trace := do
  let [steps] ← j.fields? ["steps"] | none
  (required (list? (Step.ofJson? (room - 2))) steps).map Trace.mk

end Trace

end TvmDebug
