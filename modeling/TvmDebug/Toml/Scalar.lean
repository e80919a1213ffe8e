import TvmDebug.Toml.Basic
import TvmDebug.Toml.Number
/-!
# TOML values that are written without quotes

* `isDateTime`: dates, times of day, and dates with times. Seconds may be left out.
* `Toml.ofScalar?`: the value of a text: a truth value, a number, or a date or time. What follows
  the first digits decides which it is.
-/
set_option autoImplicit false

namespace TvmDebug.Toml

open Text

/-! ## Dates and times -/

def isLeapYear (y : Nat) : Bool := y % 4 == 0 && (y % 100 != 0 || y % 400 == 0)

def daysInMonth (y m : Nat) : Nat :=
  if m = 2 then (if isLeapYear y then 29 else 28)
  else if m = 4 ∨ m = 6 ∨ m = 9 ∨ m = 11 then 30
  else 31

/-- What follows the date at the front of a text. -/
def afterDate? : List Char → Option (List Char)
  | y₁ :: y₂ :: y₃ :: y₄ :: '-' :: m₁ :: m₂ :: '-' :: d₁ :: d₂ :: cs => do
    let y ← natOfDigits? [y₁, y₂, y₃, y₄]
    let m ← natOfDigits? [m₁, m₂]
    let d ← natOfDigits? [d₁, d₂]
    if 1 ≤ m ∧ m ≤ 12 ∧ 1 ≤ d ∧ d ≤ daysInMonth y m then some cs else none
  | _ => none

/-- What follows the fraction of a second at the front of a text. -/
def afterFraction? : List Char → Option (List Char)
  | '.' :: c :: cs => if c.isDigit then some (cs.dropWhile Char.isDigit) else none
  | '.' :: _ => none
  | cs => some cs

/-- What follows the seconds at the front of a text, if there are any; only seconds have a fraction.
A leap second has the number 60. -/
def afterSeconds? : List Char → Option (List Char)
  | ':' :: s₁ :: s₂ :: cs => do
    let s ← natOfDigits? [s₁, s₂]
    if s ≤ 60 then afterFraction? cs else none
  | ':' :: _ => none
  | cs => some cs

/-- What follows the time of day at the front of a text. -/
def afterTime? : List Char → Option (List Char)
  | h₁ :: h₂ :: ':' :: m₁ :: m₂ :: cs => do
    let h ← natOfDigits? [h₁, h₂]
    let m ← natOfDigits? [m₁, m₂]
    if h ≤ 23 ∧ m ≤ 59 then afterSeconds? cs else none
  | _ => none

/-- An offset from universal time, or none at all. -/
def isOffset : List Char → Bool
  | [] => true
  | [z] => z == 'Z' || z == 'z'
  | [sign, h₁, h₂, ':', m₁, m₂] =>
    (sign == '+' || sign == '-') &&
      (match natOfDigits? [h₁, h₂], natOfDigits? [m₁, m₂] with
        | some h, some m => decide (h ≤ 23 ∧ m ≤ 59)
        | _, _ => false)
  | _ => false

def isDateTime (cs : List Char) : Bool :=
  match afterDate? cs with
  | some [] => true
  | some (mark :: time) =>
    (mark == 'T' || mark == 't' || mark == ' ') && ((afterTime? time).map isOffset).getD false
  | none => afterTime? cs == some []

/-! ## Values -/

/-- A number, or a date or time. Only the latter may have a space in it. -/
def ofDigits? (cs : List Char) : Option Toml :=
  let value := dropSign cs
  match value.dropWhile Char.isDigit with
  | [] => if value.isEmpty then none else (decimalInteger? cs).map .integer
  | '-' :: _ => if isDateTime cs then some .datetime else none
  | ':' :: _ => if isDateTime cs then some .datetime else none
  | c :: rest =>
    if (c :: rest).any isFloatMark then (float? cs).map .float
    else if c = '_' && !rest.contains ' ' then (decimalInteger? cs).map .integer
    else none

/-- The value of a text without quotes. -/
def ofScalar? (cs : List Char) : Option Toml :=
  if cs = "true".toList then some (.boolean true)
  else if cs = "false".toList then some (.boolean false)
  else if dropSign cs = "inf".toList ∨ dropSign cs = "nan".toList then some (.float true)
  else match cs with
    | '0' :: 'x' :: ds => (basedInteger? 16 isHexDigit ds).map .integer
    | '0' :: 'o' :: ds => (basedInteger? 8 isOctalDigit ds).map .integer
    | '0' :: 'b' :: ds => (basedInteger? 2 isBinaryDigit ds).map .integer
    | cs => ofDigits? cs

end TvmDebug.Toml
