import TvmDebug.Json.Fields
import TvmDebug.Json.Reader
import TvmDebug.Json.Writer
import TvmDebug.Proofs.Text.Parts
/-! # Written integers

An integer is written as its digits, after a minus sign or none. The text is read back as the number
that was written (`readNumber_text`), and that number is the integer (`int?_ofInt`); if it has at
most 64 bits it is in range (`isFinite_ofInt`). -/
set_option autoImplicit false

namespace TvmDebug

open Text

def Number.ofInt (k : Int) : Number := ⟨decide (k < 0), digits k.natAbs, none, none⟩

theorem Json.ofInt_eq (k : Int) : ofInt k = .number (.ofInt k) := rfl

theorem Json.ofNat_eq (n : Nat) : ofNat n = .number (.ofInt n) := by
  have hpos : ¬ (n : Int) < 0 := by omega
  rw [Json.ofNat, Number.ofInt, decide_eq_false hpos, Int.natAbs_natCast]

namespace Number

/-! ## Reading the text -/

/-- The characters that a number could go on with. -/
def isPart (c : Char) : Bool := c.isDigit || c == '.' || c == 'e' || c == 'E'

section Read
variable {rest : List Char}

theorem ends_isDigit (h : Ends isPart rest) : Ends Char.isDigit rest := by
  intro c hc
  have hpart := h c hc
  simp only [isPart, Bool.or_eq_false_iff] at hpart
  exact hpart.1.1.1

theorem ne_of_ends (h : Ends isPart rest) {c : Char} (hc : isPart c = true) (cs : List Char) :
    rest ≠ c :: cs := by
  rintro rfl
  rw [h c rfl] at hc
  cases hc

theorem readDigits_append {ds : List Char} {n : Nat} (hds : WritesNat ds n)
    (h : Ends isPart rest) : Json.readDigits (ds ++ rest) = some (ds, rest) := by
  obtain ⟨htake, hdrop⟩ := run_iff.2 ⟨hds.digits, ends_isDigit h, rfl⟩
  simp only [Json.readDigits, htake, hdrop]
  rw [if_neg]
  simpa using hds.ne_nil

theorem readWhole_digits (n : Nat) (h : Ends isPart rest) :
    Json.readWhole (digits n ++ rest) = some (digits n, rest) := by
  unfold Json.readWhole
  split
  · next cs hcs =>
    obtain ⟨c, ds, hds⟩ := List.exists_cons_of_ne_nil (writesNat_digits n).ne_nil
    rw [hds, List.cons_append] at hcs
    obtain ⟨rfl, rfl⟩ := List.cons.inj hcs
    obtain rfl := eq_nil_of_digits hds
    rw [hds]
    rfl
  · exact readDigits_append (writesNat_digits n) h

theorem readFraction_none (h : Ends isPart rest) : Json.readFraction rest = some (none, rest) :=
  Json.readFraction.eq_2 rest fun cs => ne_of_ends h rfl cs

theorem readExponent_none (h : Ends isPart rest) : Json.readExponent rest = some (none, rest) :=
  Json.readExponent.eq_3 rest (fun cs => ne_of_ends h rfl cs) fun cs => ne_of_ends h rfl cs

theorem readNumber_text (k : Int) (h : Ends isPart rest) :
    Json.readNumber ((ofInt k).text ++ rest) = some (ofInt k, rest) := by
  have hmagnitude : ∀ negative, Json.readMagnitude negative (digits k.natAbs ++ rest) =
      some (⟨negative, digits k.natAbs, none, none⟩, rest) := by
    intro negative
    simp only [Json.readMagnitude, readWhole_digits k.natAbs h, readFraction_none h,
      readExponent_none h, Option.bind_eq_bind, Option.bind_some]
  by_cases hk : k < 0
  · have htext : (ofInt k).text ++ rest = '-' :: (digits k.natAbs ++ rest) := by
      simp [text, ofInt, hk]
    rw [htext, Json.readNumber, hmagnitude, ofInt, decide_eq_true hk]
  · have htext : (ofInt k).text ++ rest = digits k.natAbs ++ rest := by
      simp [text, ofInt, hk]
    rw [htext, Json.readNumber.eq_2 _ ((writesNat_digits _).ne_minus rest), hmagnitude,
      ofInt, decide_eq_false hk]

theorem text_front (k : Int) (rest : List Char) :
    ∃ c cs, (ofInt k).text ++ rest = c :: cs ∧ (c.isDigit = true ∨ c = '-') := by
  by_cases hk : k < 0
  · exact ⟨'-', digits k.natAbs ++ rest, by simp [text, ofInt, hk], .inr rfl⟩
  · obtain ⟨c, ds, hds⟩ := List.exists_cons_of_ne_nil (writesNat_digits k.natAbs).ne_nil
    have hc : c.isDigit = true :=
      (writesNat_digits k.natAbs).digits c (hds ▸ List.mem_cons_self)
    exact ⟨c, ds ++ rest, by simp [text, ofInt, hk, hds], .inl hc⟩

end Read

/-! ## The integer -/

theorem int?_ofInt (k : Int) : (ofInt k).int? = some k := by
  have hvalue := (writesNat_digits k.natAbs).value
  by_cases hk : k < 0
  · have hzero : digits k.natAbs ≠ ['0'] := by
      intro h
      rw [h] at hvalue
      have hnone : k.natAbs = 0 := hvalue.symm
      omega
    simp only [int?, ofInt, decide_eq_true hk, if_true, hvalue]
    rw [if_neg hzero, Option.some.injEq]
    omega
  · simp only [int?, ofInt, decide_eq_false hk, hvalue]
    rw [if_neg Bool.false_ne_true, Option.some.injEq]
    omega

/-! ## The range -/

theorem takeDigits_eq {ds : List Char} {m : Nat}
    (h : Nat.ofDigitChars 10 ds m < UInt64.size) :
    takeDigits m ds = (Nat.ofDigitChars 10 ds m, []) := by
  induction ds generalizing m with
  | nil => rfl
  | cons c ds ih =>
    rw [Nat.ofDigitChars_cons] at h ⊢
    have hm : 10 * m + (c.toNat - '0'.toNat) < UInt64.size := by
      rw [Nat.ofDigitChars_eq_ofDigitChars_zero] at h
      have hpow : 0 < 10 ^ ds.length := Nat.pow_pos (by decide)
      have hle := Nat.le_mul_of_pos_left (10 * m + (c.toNat - '0'.toNat)) hpow
      omega
    rw [takeDigits, if_pos hm, ih h]

theorem nearestBinary64_le (n : Nat) : nearestBinary64 n ≤ 2 * n + 1 := by
  have hunit : 1 <<< (n.log2 + 1 - 53) ≤ n + 1 := by
    rw [Nat.one_shiftLeft]
    by_cases hn : n = 0
    · subst hn
      decide
    · have hpow : 2 ^ (n.log2 + 1 - 53) ≤ 2 ^ n.log2 :=
        Nat.pow_le_pow_right (by decide) (by omega)
      have hlog := Nat.log2_self_le hn
      omega
  have hmultiple : ∀ unit, nearestMultiple unit n ≤ n + unit := by
    intro unit
    have hdiv := Nat.div_mul_le_self n unit
    have hnext : (n / unit + 1) * unit = n / unit * unit + unit := Nat.succ_mul _ _
    unfold nearestMultiple
    simp only
    split
    · omega
    · omega
  have h := hmultiple (1 <<< (n.log2 + 1 - 53))
  rw [nearestBinary64]
  omega

theorem isFinite_ofInt {k : Int} (h : k.natAbs < UInt64.size) : (ofInt k).isFinite = true := by
  have hvalue := (writesNat_digits k.natAbs).value
  have htake := @takeDigits_eq (digits k.natAbs) 0 (by rwa [hvalue])
  -- No digit is left out, so that the power of ten is zero.
  have hscaled : (ofInt k).scaled = (k.natAbs, 0) := by
    rw [hvalue] at htake
    simp only [scaled, ofInt, power, htake]
    rfl
  have hone : nearestBinary64 (Nat.pow 10 0) = 1 := by decide
  have hle := nearestBinary64_le k.natAbs
  have hlimit : 2 * UInt64.size + 1 < binary64Limit := by decide
  simp only [isFinite, hscaled, Int.toNat_zero, hone, Nat.mul_one, Bool.or_eq_true,
    Bool.and_eq_true, decide_eq_true_eq]
  exact .inr ⟨by decide, by omega⟩

end Number

end TvmDebug
