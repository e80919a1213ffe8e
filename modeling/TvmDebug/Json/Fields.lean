import TvmDebug.Json.Number
import TvmDebug.Json.Spelling
import TvmDebug.SortedMap
/-!
# What JSON values mean

A reader answers `none` for a value that does not have the form it reads.

* `text?`, `int?`, `uint32?`, `uint64?`, `int32?`, `list?`: texts, integers and lists. An integer
  has no fraction and no exponent, and zero has no sign.
* `fields?`: the fields of a record, which is an object or the list of its fields in order. Members
  of an object that are no fields do not count; no field may be given twice.
* `required`, `orElse`, `nullable`: fields that must be there, that have a default, that may be
  missing or `null`.
* `tagged?`: a value of one of several kinds, the kind being named by one field.
* `sections?`: an object whose keys are section numbers.
* `isSpelledOut`: every string in a value has a text and every number is in range.
-/
set_option autoImplicit false

namespace TvmDebug

open Text

namespace Json

/-! ## Simple values -/

def text? : Json → Option String
  | .string s => (unescape? s).map String.ofList
  | _ => none

def bool? : Json → Option Bool
  | .bool b => some b
  | _ => none

def int? : Json → Option Int
  | .number n => n.int?
  | _ => none

def nat? (j : Json) : Option Nat := do
  let n ← j.int?
  if 0 ≤ n then some n.toNat else none

def uint32? (j : Json) : Option UInt32 := j.nat?.bind toUInt32?

def uint64? (j : Json) : Option UInt64 := j.nat?.bind toUInt64?

def int32? (j : Json) : Option Int32 := j.int?.bind toInt32?

/-- A list of values of one form. -/
def list? {α : Type} (f : Json → Option α) : Json → Option (List α)
  | .array items => items.mapM f
  | _ => none

/-! ## Records -/

/-- The members of an object, their keys as texts. -/
def named? (members : List (List Char × Json)) : Option (List (List Char × Json)) :=
  members.mapM fun (key, value) => (unescape? key).map (·, value)

/-- The value of a member that may be missing, but may not be there twice. -/
def member? (members : List (List Char × Json)) (name : String) : Option (Option Json) :=
  match members.filter fun m => m.1 == name.toList with
  | [] => some none
  | [m] => some (some m.2)
  | _ => none

/-- The fields of a record, each of which may be missing. -/
def fields? (names : List String) : Json → Option (List (Option Json))
  | .object members => do
    let members ← named? members
    names.mapM (member? members)
  | .array items =>
    if items.length ≤ names.length then
      some (items.map some ++ List.replicate (names.length - items.length) none)
    else none
  | _ => none

def required {α : Type} (f : Json → Option α) (field : Option Json) : Option α := field.bind f

/-- A missing field has the value `d`. -/
def orElse {α : Type} (d : α) (f : Json → Option α) : Option Json → Option α
  | none => some d
  | some j => f j

/-- A field that is missing or `null` has no value. -/
def nullable {α : Type} (f : Json → Option α) : Option Json → Option (Option α)
  | none => some none
  | some .null => some none
  | some j => (f j).map some

/-! ## Kinds -/

/-- The kind of a value, as `kind?` reads it, and the record of its fields: the kind is the member
`tag` of an object, wherever it stands, or the first item of a list. -/
def tagged? (tag : String) (kind? : Json → Option String) : Json → Option (String × Json)
  | .object members => do
    let kind ← member? (← named? members) tag
    let kind ← kind.bind kind?
    some (kind, .object members)
  | .array (kind :: fields) => do
    let kind ← kind? kind
    some (kind, .array fields)
  | _ => none

/-- The fields of a kind that has none: an object may hold other members, a list no items. -/
def noFields? : Json → Option Unit
  | .object _ => some ()
  | .array [] => some ()
  | _ => none

mutual

/-- Every string in a value has a text and every number is in range. -/
def isSpelledOut : Json → Bool
  | .null => true
  | .bool _ => true
  | .number n => n.isFinite
  | .string s => (unescape? s).isSome
  | .array items => areItemsSpelledOut items
  | .object members => areMembersSpelledOut members

def areItemsSpelledOut : List Json → Bool
  | [] => true
  | j :: js => isSpelledOut j && areItemsSpelledOut js

def areMembersSpelledOut : List (List Char × Json) → Bool
  | [] => true
  | (key, j) :: ms => (unescape? key).isSome && isSpelledOut j && areMembersSpelledOut ms

end

/-! ## Sections -/

/-- A section number as the key of an object: its decimal digits and nothing else. -/
def sectionId? (key : List Char) : Option UInt32 := do
  let n ← natOfDigits? key
  if digits n = key then toUInt32? n else none

/-- An object whose keys are section numbers; the last member of a number wins. -/
def sections? {α : Type} (f : Json → Option α) : Json → Option (SortedMap UInt32 α)
  | .object members => do
    let entries ← members.mapM fun (key, value) => do
      let id ← sectionId? key
      let x ← f value
      some (id, x)
    some (SortedMap.ofList entries)
  | _ => none

end Json

end TvmDebug
