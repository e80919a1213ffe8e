import TvmDebug.Text.Digit
/-!
# The range of 64-bit floating point numbers

* `fitsBinary64 ds e`: whether the decimal number of the digits `ds`, times ten to the power `e`,
  rounds to a finite 64-bit floating point number.
* `nearestBinary64 n`: the 64-bit floating point number next to a whole number.
-/
set_option autoImplicit false

namespace TvmDebug.Text

/-- The least number that rounds to infinity: half a unit above the greatest finite one. -/
def binary64Limit : Nat := (1 <<< 1024) - (1 <<< 970)

/-- The number that `ds` and `e` write rounds to a finite one. Numbers of more than 310 digits and
those of fewer than 300 are decided by their length. -/
def fitsBinary64 (ds : List Char) (e : Int) : Bool :=
  let ds := ds.dropWhile (· == '0')
  let size := (ds.length : Int) + e
  if ds.isEmpty || size < 300 then true
  else if 310 < size then false
  else
    let n := Nat.ofDigitChars 10 ds 0
    if 0 ≤ e then n * Nat.pow 10 e.toNat < binary64Limit
    else n < binary64Limit * Nat.pow 10 (-e).toNat

/-- The multiple of `unit` next to `n`; of two the one whose quotient is even. -/
def nearestMultiple (unit n : Nat) : Nat :=
  let q := n / unit
  let r := 2 * (n % unit)
  if unit < r ∨ (r = unit ∧ q % 2 = 1) then (q + 1) * unit else q * unit

/-- The floating point number next to a whole number: 53 binary digits are kept. -/
def nearestBinary64 (n : Nat) : Nat := nearestMultiple (1 <<< (n.log2 + 1 - 53)) n

end TvmDebug.Text
