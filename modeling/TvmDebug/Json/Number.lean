import TvmDebug.Json.Basic
import TvmDebug.Text.Binary64
/-!
# What JSON numbers mean

* `Number.int?`: the integer that a number without fraction and exponent writes.
* `Number.scaled`: a number as a whole number of at most 64 bits times a power of ten. Digits that
  do not fit are left out; those of the whole part still count for the power.
* `Number.isFinite`: whether the two factors, rounded to 64-bit floating point numbers, have a
  finite product.
-/
set_option autoImplicit false

namespace TvmDebug

open Text

/-- Takes digits into a number as long as it has at most 64 bits; the answer is the number and the
digits that are left. -/
def takeDigits (n : Nat) : List Char → Nat × List Char
  | [] => (n, [])
  | c :: cs =>
    let m := 10 * n + (c.toNat - '0'.toNat)
    if m < UInt64.size then takeDigits m cs else (n, c :: cs)

namespace Number

def int? (n : Number) : Option Int :=
  match n.fraction, n.exponent with
  | none, none =>
    if n.negative then
      if n.whole = ['0'] then none else some (-(Nat.ofDigitChars 10 n.whole 0 : Int))
    else some (Nat.ofDigitChars 10 n.whole 0)
  | _, _ => none

def power (n : Number) : Int :=
  match n.exponent with
  | some (true, ds) => -(Nat.ofDigitChars 10 ds 0 : Int)
  | some (false, ds) => Nat.ofDigitChars 10 ds 0
  | none => 0

/-- The first digits as a whole number, and the power of ten that goes with it. -/
def scaled (n : Number) : Nat × Int :=
  let places := n.fraction.getD []
  let (whole, wholeLeft) := takeDigits 0 n.whole
  let (digits, placesLeft) := takeDigits whole places
  (digits, n.power + wholeLeft.length - (places.length - placesLeft.length : Nat))

/-- The number is in the range of 64-bit floating point numbers. No number with a negative power of
ten is too great. -/
def isFinite (n : Number) : Bool :=
  let (digits, e) := n.scaled
  digits == 0 || decide (e < 0) ||
    (decide (e ≤ 308) &&
      decide (nearestBinary64 digits * nearestBinary64 (Nat.pow 10 e.toNat) < binary64Limit))

end Number

end TvmDebug
