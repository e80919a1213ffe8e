import TvmDebug.Text.Binary64
/-!
# TOML numbers

Of a number that is written without a fault it may still be open which number it is: it can be out
of range, and the letters after an underscore in a decimal integer are no digits. Such a number does
no harm where nobody looks at it.

* `areSeparated`: whether every underscore stands between digits.
* `decimalInteger?`, `basedInteger?`: integers; the answer is which one it is, if it is one of 128
  bits.
* `float?`: floats; the answer is whether a float is in the range of 64-bit ones.
-/
set_option autoImplicit false

namespace TvmDebug.Toml

open Text

/-! ## Signs and underscores -/

def dropSign : List Char → List Char
  | '+' :: cs => cs
  | '-' :: cs => cs
  | cs => cs

/-- Whether every underscore stands before a digit and after one; `after` says that a digit stands
in front of the text. -/
def areSeparated (isDigit : Char → Bool) : (after : Bool) → List Char → Bool
  | _, [] => true
  | after, c :: cs =>
    if c = '_' then after && cs.head?.any isDigit && areSeparated isDigit false cs
    else areSeparated isDigit (isDigit c) cs

def withoutUnderscores (cs : List Char) : List Char := cs.filter (· != '_')

/-! ## Integers -/

def isOctalDigit (c : Char) : Bool := '0' ≤ c && c ≤ '7'

def isBinaryDigit (c : Char) : Bool := c == '0' || c == '1'

def inBase (base : Nat) (ds : List Char) : Nat := ds.foldl (fun n c => base * n + hexValue c) 0

/-- The least integer of 128 bits with a sign. -/
def leastInteger : Int := -(1 <<< 127)

/-- The greatest integer of 128 bits without a sign. -/
def greatestInteger : Int := (1 <<< 128) - 1

/-- The integer, if it has at most 128 bits. -/
def inRange? (n : Int) : Option Int :=
  if leastInteger ≤ n ∧ n ≤ greatestInteger then some n else none

/-- An integer in a base, after what names the base. It may lack all digits, and is then none. -/
def basedInteger? (base : Nat) (isDigit : Char → Bool) (cs : List Char) : Option (Option Int) :=
  if cs.all (fun c => c == '_' || isDigit c) && areSeparated isDigit false cs then
    some (if cs.isEmpty then none else inRange? (inBase base (withoutUnderscores cs)))
  else none

/-- A decimal integer. A zero may stand in front only if it stands alone. Next to underscores
letters that could be hexadecimal digits pass for digits, and away from them anything does. -/
def decimalInteger? (cs : List Char) : Option (Option Int) :=
  let value := dropSign cs
  let ds := withoutUnderscores value
  if value.head? == some '0' && 1 < value.length then none
  else if areSeparated isHexDigit false value then
    some (if !ds.all Char.isDigit then none
      else if cs.head? == some '-' then inRange? (-(inBase 10 ds : Int))
      else inRange? (inBase 10 ds))
  else none

/-! ## Floats -/

/-- The digits at the front of a text, of which there is at least one, and what follows them. -/
def readDigits? (cs : List Char) : Option (List Char × List Char) :=
  let isPart (c : Char) : Bool := c == '_' || c.isDigit
  let ds := withoutUnderscores (cs.takeWhile isPart)
  if ds.isEmpty then none else some (ds, cs.dropWhile isPart)

def isExponentMark (c : Char) : Bool := c == 'e' || c == 'E'

/-- The characters that make a number a float. -/
def isFloatMark (c : Char) : Bool := c == '.' || isExponentMark c

def readPlaces? : List Char → Option (List Char × List Char)
  | '.' :: cs => readDigits? cs
  | cs => some ([], cs)

def readPower? : List Char → Option (Int × List Char)
  | [] => some (0, [])
  | c :: cs =>
    if isExponentMark c then
      (readDigits? (dropSign cs)).map fun (ds, rest) =>
        (if cs.head? == some '-' then -(inBase 10 ds : Int) else inBase 10 ds, rest)
    else none

/-- Whether the float that a text writes is in range. -/
def float? (cs : List Char) : Option Bool := do
  let value := dropSign cs
  let (whole, rest) ← readDigits? value
  let (places, rest) ← readPlaces? rest
  let (power, rest) ← readPower? rest
  if (value.head? == some '0' && 1 < whole.length) || !rest.isEmpty ||
      !areSeparated Char.isDigit false value then
    none
  else some (fitsBinary64 (whole ++ places) (power - (places.length : Int)))

end TvmDebug.Toml
