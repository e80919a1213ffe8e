/-!
# JSON values

A value keeps the spelling of its strings and numbers: what a spelling means, and whether it means
anything, is asked only where the value is used.

* `Json`, `Number`: values and numbers as they are spelled.
* `Json.depth`: how many arrays and objects lie around the innermost value.
-/
set_option autoImplicit false

namespace TvmDebug

/-- A number as it is spelled: a whole part, and perhaps a fraction and an exponent. -/
structure Number where
  negative : Bool
  whole : List Char
  fraction : Option (List Char)
  exponent : Option (Bool × List Char)
deriving DecidableEq

/-- A JSON value; strings are what stands between the quotes. -/
inductive Json where
  | null
  | bool (value : Bool)
  | number (n : Number)
  | string (spelling : List Char)
  | array (items : List Json)
  | object (members : List (List Char × Json))
deriving Inhabited

namespace Json

mutual

def depth : Json → Nat
  | .array items => depthItems items + 1
  | .object members => depthMembers members + 1
  | _ => 0

def depthItems : List Json → Nat
  | [] => 0
  | j :: js => max (depth j) (depthItems js)

def depthMembers : List (List Char × Json) → Nat
  | [] => 0
  | (_, j) :: ms => max (depth j) (depthMembers ms)

end

end Json

end TvmDebug
