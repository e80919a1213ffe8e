import Mathlib.Algebra.Order.Field.Power
import Mathlib.Algebra.Order.Ring.Cast
import Mathlib.Tactic.GCongr
import Mathlib.Tactic.NormNum
import Mathlib.Tactic.Positivity
import TvmDebug.Proofs.Toml.Digits
/-! # Numbers are read as they are written

A sign is what stands in front of a number (`Sign.drop`, `exists_sign`). Integers of each base are
read from the digits that write them (`basedInteger?_eq_some_iff`; `decimalInteger?_of_digits` and
`integerText_of_decimal`), and floats from their whole, their places and their power
(`float?_of_parts`, `floatText_of_float?`). Whether a float is in range is decided as for the number
that it is (`fitsBinary64_iff`). -/
set_option autoImplicit false

namespace TvmDebug.Toml

open Text

/-! ## Signs -/

section Sign
variable {sign cs rest : List Char} {negative : Bool}

/-- The text begins with no sign. -/
def NoSign (cs : List Char) : Prop := ∀ c, cs.head? = some c → c ≠ '+' ∧ c ≠ '-'

theorem NoSign.dropSign_eq (h : NoSign cs) : dropSign cs = cs := by
  refine dropSign.eq_3 cs (fun cs' hcs => ?_) fun cs' hcs => ?_
  · exact (h '+' (by rw [hcs]; rfl)).1 rfl
  · exact (h '-' (by rw [hcs]; rfl)).2 rfl

theorem Sign.drop (h : Sign sign negative) (hcs : NoSign cs) :
    dropSign (sign ++ cs) = cs ∧ ((sign ++ cs).head? == some '-') = negative := by
  cases h with
  | none =>
    refine ⟨hcs.dropSign_eq, beq_eq_false_iff_ne.2 fun hc => ?_⟩
    exact (hcs '-' hc).2 rfl
  | plus => exact ⟨rfl, rfl⟩
  | minus => exact ⟨rfl, rfl⟩

theorem exists_sign (cs : List Char) :
    ∃ sign, Sign sign (cs.head? == some '-') ∧ cs = sign ++ dropSign cs := by
  unfold dropSign
  split
  · exact ⟨['+'], .plus, rfl⟩
  · exact ⟨['-'], .minus, rfl⟩
  · next hplus hminus =>
    have hhead : (cs.head? == some '-') = false := by
      rw [beq_eq_false_iff_ne]
      intro hc
      obtain ⟨cs', rfl⟩ := List.head?_eq_some_iff.1 hc
      exact hminus cs' rfl
    exact ⟨[], hhead ▸ .none, rfl⟩

theorem noSign_of_isDigit {c : Char} (hc : c.isDigit = true) (cs : List Char) :
    NoSign (c :: cs) := by
  intro d hd
  obtain rfl := Option.some.inj hd
  constructor <;> rintro rfl <;> exact absurd hc (by decide)

end Sign

/-! ## Digits in front of a number -/

section Digits
variable {base : Nat} {kind : Char → Bool} {c : Char} {cs text rest : List Char} {ds : List Nat}

theorem Digits.front (h : Digits 10 text ds) : ∃ c cs, text = c :: cs ∧ c.isDigit = true := by
  cases h with
  | one hc | cons hc | underscore hc => exact ⟨_, _, rfl, ((digitKind_ten.iff _ _).1 hc).1⟩

theorem Digits.noSign (h : Digits 10 text ds) (rest : List Char) : NoSign (text ++ rest) := by
  obtain ⟨c, cs, rfl, hc⟩ := h.front
  exact noSign_of_isDigit hc _

/-- A zero in front of other digits is seen on the text. -/
theorem Digits.noZero_iff (h : Digits 10 text ds) :
    NoZero ds ↔ ¬ (text.head? = some '0' ∧ 1 < (withoutUnderscores text).length) := by
  obtain ⟨-, -, -, rfl⟩ := (digits_iff digitKind_ten rfl).1 h
  obtain ⟨c, cs, rfl, hc⟩ := h.front
  have hne : c ≠ '_' := by
    rintro rfl
    cases hc
  have hzero : hexValue c = 0 ↔ c = '0' := by
    constructor
    · intro h
      exact (or_self_iff.1 ((digitKind_ten.iff c 0).2 ⟨hc, h⟩).2 : c = '0')
    · rintro rfl
      rfl
  rw [withoutUnderscores_cons hne, NoZero, List.map_cons, List.head?_cons, List.head?_cons,
    Option.some.injEq, Option.some.injEq, hzero, List.length_cons, not_and, Nat.lt_add_left_iff_pos,
    Nat.not_lt, Nat.le_zero, List.length_eq_zero_iff]
  refine imp_congr_right fun hc => ?_
  rw [List.cons.injEq, List.map_eq_nil_iff, hc]
  exact and_iff_right rfl

theorem Digits.exists_withoutUnderscores (h : Digits 10 text ds) :
    ∃ c cs, withoutUnderscores text = c :: cs := by
  obtain ⟨c, cs, rfl, hc⟩ := h.front
  refine ⟨c, withoutUnderscores cs, withoutUnderscores_cons ?_⟩
  rintro rfl
  cases hc

/-- More than one digit is more than one character. -/
theorem Digits.one_lt_length (h : Digits 10 text ds) :
    1 < text.length ↔ 1 < (withoutUnderscores text).length := by
  have hne : ∀ {c : Char} {d : Nat}, IsDigit 10 c d → c ≠ '_' := by
    rintro c d hc rfl
    cases ((digitKind_ten.iff _ _).1 hc).1
  cases h with
  | one hc =>
    rw [withoutUnderscores_cons (hne hc)]
    rfl
  | cons hc h =>
    obtain ⟨d, ds, hds⟩ := h.exists_withoutUnderscores
    obtain ⟨d', ds', hds', -⟩ := h.front
    rw [withoutUnderscores_cons (hne hc), hds, hds']
    simp
  | @underscore c d text ds hc h =>
    obtain ⟨d, ds, hds⟩ := h.exists_withoutUnderscores
    have hskip : withoutUnderscores ('_' :: text) = withoutUnderscores text := rfl
    rw [withoutUnderscores_cons (hne hc), hskip, hds]
    simp

end Digits

/-! ## Integers -/

section Integers
variable {base : Nat} {kind : Char → Bool} {cs text : List Char} {ds : List Nat} {o : Option Int}

theorem inRange?_eq (n : Int) : inRange? n = known? n := by
  have hiff : leastInteger ≤ n ∧ n ≤ greatestInteger ↔ -2 ^ 127 ≤ n ∧ n < 2 ^ 128 := by
    have hleast : leastInteger = -2 ^ 127 := by decide
    have hgreatest : greatestInteger = 2 ^ 128 - 1 := by decide
    rw [hleast, hgreatest]
    omega
  simp only [inRange?, known?, hiff]

theorem basedInteger?_eq_some_iff (hkind : DigitKind base kind) (hunderscore : kind '_' = false) :
    basedInteger? base kind cs = some o ↔
      cs = [] ∧ o = none ∨ ∃ ds, Digits base cs ds ∧ o = known? (number base ds) := by
  have hchars : cs.all (fun c => c == '_' || kind c) = true ↔
      ∀ c ∈ cs, c = '_' ∨ kind c = true := by
    simp
  rw [basedInteger?, Option.ite_none_right_eq_some, Bool.and_eq_true, hchars, Option.some.injEq]
  cases cs with
  | nil =>
    have hdigits : ∀ ds, ¬ Digits base [] ds := fun ds h => by cases h
    simp only [hdigits, false_and, exists_false, or_false, true_and]
    constructor
    · rintro ⟨-, rfl⟩
      rfl
    · rintro rfl
      exact ⟨⟨List.forall_mem_nil _, rfl⟩, rfl⟩
  | cons c cs =>
    rw [List.isEmpty_cons, if_neg Bool.false_ne_true, inRange?_eq, inBase_eq]
    constructor
    · rintro ⟨⟨hall, hseparated⟩, ho⟩
      have hdigits := (digits_iff hkind hunderscore).2
        ⟨List.cons_ne_nil c cs, hall, hseparated, rfl⟩
      exact .inr ⟨_, hdigits, ho.symm⟩
    · rintro (⟨h, -⟩ | ⟨ds, hds, ho⟩)
      · cases h
      · obtain ⟨-, hall, hseparated, rfl⟩ := (digits_iff hkind hunderscore).1 hds
        exact ⟨⟨hall, hseparated⟩, ho.symm⟩

theorem areSeparated_congr {kind' : Char → Bool} (h : ∀ c ∈ cs, kind c = kind' c) (after : Bool) :
    areSeparated kind after cs = areSeparated kind' after cs := by
  induction cs generalizing after with
  | nil => rfl
  | cons c cs ih =>
    obtain ⟨hc, hcs⟩ := List.forall_mem_cons.1 h
    have hhead : cs.head?.any kind = cs.head?.any kind' := by
      cases cs with
      | nil => rfl
      | cons d cs => exact hcs d List.mem_cons_self
    rw [areSeparated, areSeparated, ih hcs, ih hcs, hhead, hc]

/-- Between decimal digits it makes no difference which digits an underscore may stand between. -/
theorem areSeparated_hex (h : ∀ c ∈ cs, c = '_' ∨ c.isDigit = true) :
    areSeparated isHexDigit false cs = areSeparated Char.isDigit false cs := by
  refine areSeparated_congr (fun c hc => ?_) false
  obtain rfl | hdigit := h c hc
  · rfl
  · rw [hdigit, isHexDigit_of_isDigit hdigit]

theorem all_withoutUnderscores_iff :
    (withoutUnderscores cs).all Char.isDigit = true ↔ ∀ c ∈ cs, c = '_' ∨ c.isDigit = true := by
  rw [List.all_eq_true]
  simp only [withoutUnderscores, List.mem_filter, bne_iff_ne, and_imp]
  exact forall₂_congr fun c hc => by rw [or_iff_not_imp_left]

variable {sign value : List Char} {negative : Bool}

/-- A decimal integer is told by what stands after its sign. -/
theorem decimalInteger?_eq (hsign : Sign sign negative) (hvalue : NoSign value) :
    decimalInteger? (sign ++ value) =
      if value.head? = some '0' ∧ 1 < value.length then none
      else if areSeparated isHexDigit false value = true then
        some (if (withoutUnderscores value).all Char.isDigit = true then
          known? (signed negative (number 10 ((withoutUnderscores value).map hexValue))) else none)
      else none := by
  obtain ⟨hdrop, hnegative⟩ := hsign.drop hvalue
  have hzero : (value.head? == some '0' && decide (1 < value.length)) = true ↔
      value.head? = some '0' ∧ 1 < value.length := by
    rw [Bool.and_eq_true, beq_iff_eq, decide_eq_true_eq]
  have hvalue : (if !(withoutUnderscores value).all Char.isDigit then none
      else if ((sign ++ value).head? == some '-') = true then
        inRange? (-(inBase 10 (withoutUnderscores value) : Int))
      else inRange? (inBase 10 (withoutUnderscores value))) =
      if (withoutUnderscores value).all Char.isDigit = true then
        known? (signed negative (number 10 ((withoutUnderscores value).map hexValue)))
      else none := by
    rw [hnegative, inBase_eq, inRange?_eq, inRange?_eq, signed, ← apply_ite known?]
    by_cases hall : (withoutUnderscores value).all Char.isDigit = true
    · rw [if_pos hall, hall, if_neg (by simp)]
    · rw [if_neg hall, Bool.eq_false_iff.2 hall]
      rfl
  rw [decimalInteger?]
  simp only [hdrop, hzero]
  rw [hvalue]

theorem decimalInteger?_of_digits (hsign : Sign sign negative) {ds : List Nat}
    (h : Digits 10 value ds) (hzero : NoZero ds) :
    decimalInteger? (sign ++ value) = some (known? (signed negative (number 10 ds))) := by
  have hno := h.noSign []
  rw [List.append_nil] at hno
  have hfirst : ¬ (value.head? = some '0' ∧ 1 < value.length) := by
    rw [h.one_lt_length]
    exact h.noZero_iff.1 hzero
  obtain ⟨-, hchars, hseparated, rfl⟩ := (digits_iff digitKind_ten rfl).1 h
  rw [decimalInteger?_eq hsign hno, if_neg hfirst, areSeparated_hex hchars, if_pos hseparated,
    if_pos (all_withoutUnderscores_iff.2 hchars)]

/-- What is read as a decimal integer, and is written in digits, is one. -/
theorem integerText_of_decimal (hsign : Sign sign negative) (hvalue : NoSign value)
    (hne : value ≠ []) (hchars : ∀ c ∈ value, c = '_' ∨ c.isDigit = true)
    (h : decimalInteger? (sign ++ value) = some o) :
    ∃ n, IntegerText (sign ++ value) n ∧ o = known? n := by
  rw [decimalInteger?_eq hsign hvalue, if_pos (all_withoutUnderscores_iff.2 hchars),
    Option.ite_none_left_eq_some, Option.ite_none_right_eq_some, areSeparated_hex hchars] at h
  obtain ⟨hfirst, hseparated, ho⟩ := h
  have hdigits := (digits_iff digitKind_ten rfl).2 ⟨hne, hchars, hseparated, rfl⟩
  rw [hdigits.one_lt_length] at hfirst
  exact ⟨_, .decimal hsign hdigits (hdigits.noZero_iff.2 hfirst), (Option.some.inj ho).symm⟩

end Integers

/-! ## The parts of a float -/

section Parts
variable {c : Char} {cs ds text rest : List Char} {after : Bool}

/-- The text goes on neither with a digit nor with an underscore. -/
def NoDigit (cs : List Char) : Prop := ∀ c, cs.head? = some c → c.isDigit = false ∧ c ≠ '_'

theorem noDigit_nil : NoDigit [] := nofun

theorem noDigit_cons (hdigit : c.isDigit = false) (hunderscore : c ≠ '_') (cs : List Char) :
    NoDigit (c :: cs) := by
  intro d hd
  obtain rfl := Option.some.inj hd
  exact ⟨hdigit, hunderscore⟩

theorem areSeparated_skip (hdigit : c.isDigit = false) (hunderscore : c ≠ '_') :
    areSeparated Char.isDigit after (c :: cs) = areSeparated Char.isDigit false cs := by
  rw [areSeparated, if_neg hunderscore, hdigit]

/-- The parts of a number are separated each for itself. -/
theorem areSeparated_append (h : NoDigit rest) :
    areSeparated Char.isDigit after (text ++ rest) =
      (areSeparated Char.isDigit after text && areSeparated Char.isDigit false rest) := by
  induction text generalizing after with
  | nil =>
    rw [List.nil_append, areSeparated, Bool.true_and]
    cases rest with
    | nil => rfl
    | cons c rest =>
      obtain ⟨hdigit, hunderscore⟩ := h c rfl
      rw [areSeparated_skip hdigit hunderscore, areSeparated_skip hdigit hunderscore]
  | cons c text ih =>
    have hhead : (text ++ rest).head?.any Char.isDigit = text.head?.any Char.isDigit := by
      cases text with
      | nil =>
        cases rest with
        | nil => rfl
        | cons c rest => exact (h c rfl).1
      | cons => rfl
    rw [List.cons_append, areSeparated, areSeparated, ih, ih, hhead]
    split
    · simp only [Bool.and_assoc]
    · rfl

theorem readDigits?_eq_some_iff : readDigits? cs = some (ds, rest) ↔
    ∃ text, cs = text ++ rest ∧ (∀ c ∈ text, c = '_' ∨ c.isDigit = true) ∧ NoDigit rest ∧
      ds = withoutUnderscores text ∧ ds ≠ [] := by
  have hpart : ∀ c, (c == '_' || c.isDigit) = true ↔ c = '_' ∨ c.isDigit = true := by simp
  have hends : Ends (fun c => c == '_' || c.isDigit) rest ↔ NoDigit rest := by
    refine forall₂_congr fun c _ => ?_
    rw [Bool.or_eq_false_iff, beq_eq_false_iff_ne, and_comm, ne_eq]
  rw [readDigits?]
  simp only [Option.ite_none_left_eq_some, Option.some.injEq, Prod.mk.injEq, List.isEmpty_iff]
  constructor
  · rintro ⟨hne, rfl, hdrop⟩
    obtain ⟨htext, hrest, hcs⟩ := run_iff.1 ⟨rfl, hdrop⟩
    exact ⟨_, hcs, fun c hc => (hpart c).1 (htext c hc), hends.1 hrest, rfl, hne⟩
  · rintro ⟨text, hcs, htext, hrest, rfl, hne⟩
    obtain ⟨htake, hdrop⟩ := run_iff.2 ⟨fun c hc => (hpart c).2 (htext c hc), hends.2 hrest, hcs⟩
    rw [htake]
    exact ⟨hne, rfl, hdrop⟩

theorem Digits.readDigits? {ds : List Nat} (h : Digits 10 text ds) (hrest : NoDigit rest) :
    readDigits? (text ++ rest) = some (withoutUnderscores text, rest) := by
  obtain ⟨c, cs, hcs⟩ := h.exists_withoutUnderscores
  obtain ⟨-, hchars, -, -⟩ := (digits_iff digitKind_ten rfl).1 h
  exact readDigits?_eq_some_iff.2 ⟨text, rfl, hchars, hrest, rfl, hcs ▸ List.cons_ne_nil _ _⟩

/-- What is read as digits is written in digits, if it is separated. -/
theorem digits_of_readDigits? (h : readDigits? cs = some (ds, rest))
    (hseparated : areSeparated Char.isDigit false cs = true) :
    ∃ text, cs = text ++ rest ∧ Digits 10 text (ds.map hexValue) ∧ ds = withoutUnderscores text ∧
      NoDigit rest ∧ areSeparated Char.isDigit false rest = true := by
  obtain ⟨text, rfl, hchars, hrest, rfl, hne⟩ := readDigits?_eq_some_iff.1 h
  rw [areSeparated_append hrest, Bool.and_eq_true] at hseparated
  have htext : text ≠ [] := by
    rintro rfl
    exact hne rfl
  exact ⟨text, rfl, (digits_iff digitKind_ten rfl).2 ⟨htext, hchars, hseparated.1, rfl⟩, rfl, hrest,
    hseparated.2⟩

theorem Digits.isDigit_of_mem {ds : List Nat} (h : Digits 10 text ds) {c : Char}
    (hc : c ∈ withoutUnderscores text) : c.isDigit = true := by
  obtain ⟨-, hchars, -, -⟩ := (digits_iff digitKind_ten rfl).1 h
  exact List.all_eq_true.1 (all_withoutUnderscores_iff.2 hchars) c hc

theorem Digits.separated {ds : List Nat} (h : Digits 10 text ds) (hrest : NoDigit rest) :
    areSeparated Char.isDigit false (text ++ rest) = areSeparated Char.isDigit false rest := by
  rw [areSeparated_append hrest, ((digits_iff digitKind_ten rfl).1 h).2.2.1, Bool.true_and]

end Parts

/-! ## The range of floats -/

section Range
variable {ds : List Nat} {cs : List Char} {e : Int}

theorem number_cons (base d : Nat) (ds : List Nat) :
    number base (d :: ds) = d * base ^ ds.length + number base ds := by
  rw [number, number, List.reverse_cons, Nat.ofDigits_append, List.length_reverse,
    Nat.ofDigits_singleton, Nat.mul_comm, Nat.add_comm]

theorem number_lt (h : ∀ d ∈ ds, d < 10) : number 10 ds < 10 ^ ds.length := by
  rw [number, ← List.length_reverse]
  exact Nat.ofDigits_lt_base_pow_length (by decide) fun d hd => h d (List.mem_reverse.1 hd)

/-- Zeros in front do not count. -/
theorem number_dropZeros (cs : List Char) :
    number 10 ((cs.dropWhile (· == '0')).map hexValue) = number 10 (cs.map hexValue) := by
  induction cs with
  | nil => rfl
  | cons c cs ih =>
    rw [List.dropWhile_cons]
    split
    · next hc =>
      obtain rfl := beq_iff_eq.1 hc
      have hzero : hexValue '0' = 0 := rfl
      rw [ih, List.map_cons, number_cons, hzero, Nat.zero_mul, Nat.zero_add]
    · rfl

theorem cast_shiftLeft_sub {m n : Nat} (h : n ≤ m) :
    (((1 <<< m) - (1 <<< n) : Nat) : ℚ) = 2 ^ m - 2 ^ n := by
  rw [Nat.one_shiftLeft, Nat.one_shiftLeft, Nat.cast_sub (Nat.pow_le_pow_right Nat.two_pos h),
    Nat.cast_pow, Nat.cast_pow, Nat.cast_ofNat]

/-- The greatest 64-bit float and half a unit more. -/
theorem binary64Limit_eq : (2 ^ 1024 - 2 ^ 970 : ℚ) = (binary64Limit : ℚ) :=
  (cast_shiftLeft_sub (by decide)).symm

theorem isFinite_of_size {n : Nat} {size : Nat} (hn : n < 10 ^ size) (h : (size : Int) + e < 300) :
    IsFinite n e := by
  have hsize : (10 : ℚ) ^ (size : Int) * 10 ^ e ≤ 10 ^ (299 : Int) := by
    rw [← zpow_add₀ (by norm_num)]
    exact zpow_le_zpow_right₀ (by norm_num) (by omega)
  have hlimit : ((10 ^ 299 : Nat) : ℚ) < binary64Limit := by
    rw [Nat.cast_lt]
    decide +kernel
  have hcast : (n : ℚ) < 10 ^ (size : Int) := by
    rw [zpow_natCast]
    exact_mod_cast hn
  have hpos : (0 : ℚ) < 10 ^ e := by positivity
  rw [IsFinite, binary64Limit_eq]
  calc (n : ℚ) * 10 ^ e ≤ 10 ^ (size : Int) * 10 ^ e := by gcongr
    _ ≤ 10 ^ (299 : Int) := hsize
    _ = ((10 ^ 299 : Nat) : ℚ) := by norm_num
    _ < binary64Limit := hlimit

theorem not_isFinite_of_size {n : Nat} {size : Nat} (hn : 10 ^ size ≤ n)
    (h : 310 ≤ (size : Int) + e) : ¬ IsFinite n e := by
  have hsize : (10 : ℚ) ^ (310 : Int) ≤ 10 ^ (size : Int) * 10 ^ e := by
    rw [← zpow_add₀ (by norm_num)]
    exact zpow_le_zpow_right₀ (by norm_num) h
  have hlimit : (binary64Limit : ℚ) ≤ ((10 ^ 310 : Nat) : ℚ) := by
    rw [Nat.cast_le]
    decide +kernel
  have hcast : (10 : ℚ) ^ (size : Int) ≤ n := by
    rw [zpow_natCast]
    exact_mod_cast hn
  have hpos : (0 : ℚ) < 10 ^ e := by positivity
  rw [IsFinite, binary64Limit_eq, not_lt]
  calc (binary64Limit : ℚ) ≤ ((10 ^ 310 : Nat) : ℚ) := hlimit
    _ = 10 ^ (310 : Int) := by norm_num
    _ ≤ 10 ^ (size : Int) * 10 ^ e := hsize
    _ ≤ n * 10 ^ e := by gcongr

theorem isFinite_iff (n : Nat) (e : Int) : IsFinite n e ↔
    if 0 ≤ e then n * 10 ^ e.toNat < binary64Limit else n < binary64Limit * 10 ^ (-e).toNat := by
  rw [IsFinite, binary64Limit_eq]
  split
  · next he =>
    obtain ⟨k, rfl⟩ := Int.eq_ofNat_of_zero_le he
    rw [Int.toNat_natCast, zpow_natCast]
    exact_mod_cast Iff.rfl
  · next he =>
    obtain ⟨k, hk⟩ := Int.eq_ofNat_of_zero_le (by omega : 0 ≤ -e)
    obtain rfl : e = -(k : Int) := by omega
    rw [Int.neg_neg, Int.toNat_natCast, zpow_neg, zpow_natCast, ← div_eq_mul_inv,
      div_lt_iff₀ (by positivity)]
    exact_mod_cast Iff.rfl

theorem fitsBinary64_iff (h : ∀ c ∈ cs, c.isDigit = true) :
    fitsBinary64 cs e = true ↔ IsFinite (number 10 (cs.map hexValue)) e := by
  rw [← number_dropZeros]
  have hdigits : ∀ c ∈ cs.dropWhile (· == '0'), c.isDigit = true := fun c hc =>
    h c ((List.dropWhile_suffix _).subset hc)
  have hends := ends_dropWhile (· == '0') cs
  rw [fitsBinary64]
  generalize cs.dropWhile (· == '0') = ds at hdigits hends
  have hmem : ∀ d ∈ ds.map hexValue, d < 10 := by
    intro d hd
    obtain ⟨c, hc, rfl⟩ := List.mem_map.1 hd
    exact ((digitKind_ten.iff c _).2 ⟨hdigits c hc, rfl⟩).1
  have hlt := number_lt hmem
  rw [List.length_map] at hlt
  simp only [ofDigitChars_eq hdigits, Nat.pow_eq]
  by_cases hsmall : (ds.length : Int) + e < 300
  · simp [hsmall, isFinite_of_size hlt hsmall]
  cases ds with
  | nil =>
    have hzero : IsFinite 0 e := (isFinite_iff 0 e).2 (by split <;> simp <;> decide +kernel)
    simp [number, hzero]
  | cons c ds =>
    simp only [List.isEmpty_cons, Bool.false_or, decide_eq_true_eq, if_neg hsmall]
    by_cases hlarge : 310 < (((c :: ds).length : Nat) : Int) + e
    · have hfirst : 1 ≤ hexValue c := by
        refine Nat.one_le_iff_ne_zero.2 fun hzero => ?_
        have hc := ((digitKind_ten.iff c 0).2 ⟨hdigits c List.mem_cons_self, hzero⟩).2
        obtain rfl : c = '0' := or_self_iff.1 hc
        exact absurd (hends '0' rfl) (by decide)
      have hle : 10 ^ ds.length ≤ number 10 ((c :: ds).map hexValue) := by
        rw [List.map_cons, number_cons, List.length_map]
        exact Nat.le_trans (Nat.le_mul_of_pos_left _ hfirst) (Nat.le_add_right _ _)
      rw [if_pos hlarge]
      rw [List.length_cons] at hlarge
      exact iff_of_false Bool.false_ne_true (not_isFinite_of_size hle (by omega))
    · rw [isFinite_iff, if_neg hlarge]
      split <;> exact decide_eq_true_iff

end Range

/-! ## Floats -/

section Floats
variable {cs p text rest sign whole places power : List Char} {ds ds' : List Nat} {e : Int}
  {negative : Bool}

theorem PlacesText.noDigit (h : PlacesText text ds) (hrest : NoDigit rest) :
    NoDigit (text ++ rest) := by
  cases h with
  | none => exact hrest
  | places => exact noDigit_cons (by decide) (by decide) _

theorem PlacesText.read (h : PlacesText text ds) (hrest : NoDigit rest)
    (hdot : ∀ cs, rest ≠ '.' :: cs) :
    ∃ p, readPlaces? (text ++ rest) = some (p, rest) ∧ p.map hexValue = ds ∧
      (∀ c ∈ p, c.isDigit = true) ∧
      areSeparated Char.isDigit false (text ++ rest) = areSeparated Char.isDigit false rest := by
  cases h with
  | none => exact ⟨[], readPlaces?.eq_2 rest hdot, rfl, List.forall_mem_nil _, rfl⟩
  | places h =>
    obtain ⟨-, -, -, rfl⟩ := (digits_iff digitKind_ten rfl).1 h
    refine ⟨_, h.readDigits? hrest, rfl, fun c => h.isDigit_of_mem, ?_⟩
    rw [List.cons_append, areSeparated_skip (by decide) (by decide), h.separated hrest]

theorem places_of_readPlaces? (h : readPlaces? cs = some (p, rest))
    (hseparated : areSeparated Char.isDigit false cs = true) :
    ∃ text, cs = text ++ rest ∧ PlacesText text (p.map hexValue) ∧
      (∀ c ∈ p, c.isDigit = true) ∧ areSeparated Char.isDigit false rest = true := by
  unfold readPlaces? at h
  split at h
  · rw [areSeparated_skip (by decide) (by decide)] at hseparated
    obtain ⟨text, rfl, hdigits, rfl, -, hseparated⟩ := digits_of_readDigits? h hseparated
    exact ⟨'.' :: text, rfl, .places hdigits, fun c => hdigits.isDigit_of_mem, hseparated⟩
  · obtain ⟨rfl, rfl⟩ := Prod.mk.inj (Option.some.inj h)
    exact ⟨[], rfl, .none, List.forall_mem_nil _, hseparated⟩

theorem PowerText.front (h : PowerText text e) :
    text = [] ∨ ∃ c cs, text = c :: cs ∧ (c = 'e' ∨ c = 'E') := by
  cases h with
  | none => exact .inl rfl
  | power hmark => exact .inr ⟨_, _, rfl, hmark⟩

theorem PowerText.noDigit (h : PowerText text e) : NoDigit text ∧ ∀ cs, text ≠ '.' :: cs := by
  obtain rfl | ⟨c, cs, rfl, rfl | rfl⟩ := h.front
  · exact ⟨noDigit_nil, nofun⟩
  · exact ⟨noDigit_cons (by decide) (by decide) _, nofun⟩
  · exact ⟨noDigit_cons (by decide) (by decide) _, nofun⟩

theorem areSeparated_sign (hsign : Sign sign negative) :
    areSeparated Char.isDigit false (sign ++ text) = areSeparated Char.isDigit false text := by
  cases hsign with
  | none => rfl
  | plus | minus => exact areSeparated_skip (by decide) (by decide)

theorem PowerText.read (h : PowerText text e) :
    readPower? text = some (e, []) ∧ areSeparated Char.isDigit false text = true := by
  cases h with
  | none => exact ⟨rfl, rfl⟩
  | @power mark sign text negative ds hmark hsign h =>
    have hno := h.noSign []
    have hread := h.readDigits? noDigit_nil
    have hseparated := h.separated noDigit_nil
    rw [List.append_nil] at hno hread hseparated
    obtain ⟨hdrop, hnegative⟩ := hsign.drop hno
    obtain ⟨-, -, -, rfl⟩ := (digits_iff digitKind_ten rfl).1 h
    have hexponent : isExponentMark mark = true := by rcases hmark with rfl | rfl <;> rfl
    have hskip : mark.isDigit = false ∧ mark ≠ '_' := by rcases hmark with rfl | rfl <;> decide
    refine ⟨?_, ?_⟩
    · rw [readPower?, if_pos hexponent, hdrop, hread, Option.map_some, hnegative, ← inBase_eq]
      rfl
    · rw [areSeparated_skip hskip.1 hskip.2, areSeparated_sign hsign, hseparated]
      rfl

theorem power_of_readPower? (h : readPower? cs = some (e, []))
    (hseparated : areSeparated Char.isDigit false cs = true) : PowerText cs e := by
  cases cs with
  | nil =>
    obtain ⟨rfl, -⟩ := Prod.mk.inj (Option.some.inj h)
    exact .none
  | cons mark cs =>
    rw [readPower?, Option.ite_none_right_eq_some, Option.map_eq_some_iff] at h
    obtain ⟨hmark, ⟨ds, rest⟩, hread, heq⟩ := h
    obtain ⟨he, rfl⟩ := Prod.mk.inj heq
    have hmark' : mark = 'e' ∨ mark = 'E' := by simpa [isExponentMark] using hmark
    have hskip : mark.isDigit = false ∧ mark ≠ '_' := by rcases hmark' with rfl | rfl <;> decide
    obtain ⟨sign, hsign, hcs⟩ := exists_sign cs
    rw [areSeparated_skip hskip.1 hskip.2, hcs, areSeparated_sign hsign] at hseparated
    obtain ⟨text, htext, hdigits, -⟩ := digits_of_readDigits? hread hseparated
    rw [List.append_nil] at htext
    rw [htext] at hcs
    rw [inBase_eq] at he
    have hpower : PowerText (mark :: (sign ++ text)) (signed _ (number 10 (ds.map hexValue))) :=
      .power hmark' hsign hdigits
    rw [hcs, ← he]
    exact hpower

/-- Floats, as far as they are written without a fault. -/
theorem fitsBinary64_append_iff {ds p : List Char} (hds : ∀ c ∈ ds, c.isDigit = true)
    (hp : ∀ c ∈ p, c.isDigit = true) (e : Int) :
    fitsBinary64 (ds ++ p) (e - p.length) = true ↔
      IsFinite (number 10 (ds.map hexValue ++ p.map hexValue)) (e - (p.map hexValue).length) := by
  rw [fitsBinary64_iff (List.forall_mem_append.2 ⟨hds, hp⟩), List.map_append, List.length_map]

theorem float?_of_parts {isFinite : Bool} (hsign : Sign sign negative)
    (hwhole : Digits 10 whole ds) (hzero : NoZero ds) (hplaces : PlacesText places ds')
    (hpower : PowerText power e)
    (hfinite : isFinite = true ↔ IsFinite (number 10 (ds ++ ds')) (e - ds'.length)) :
    float? (sign ++ (whole ++ (places ++ power))) = some isFinite := by
  obtain ⟨hend, hdot⟩ := hpower.noDigit
  have hrest : NoDigit (places ++ power) := hplaces.noDigit hend
  obtain ⟨p, hp, rfl, hdigits, hseparated⟩ := hplaces.read hend hdot
  obtain ⟨hreadPower, hseparated'⟩ := hpower.read
  have hfirst := hwhole.noZero_iff.1 hzero
  have hvalue := hwhole.separated hrest
  obtain ⟨hdrop, -⟩ := hsign.drop (hwhole.noSign (places ++ power))
  obtain ⟨-, -, -, rfl⟩ := (digits_iff digitKind_ten rfl).1 hwhole
  have hhead : (whole ++ (places ++ power)).head? = whole.head? := by
    obtain ⟨c, cs, rfl, -⟩ := hwhole.front
    rfl
  have hfits := fitsBinary64_append_iff (fun c => hwhole.isDigit_of_mem) hdigits e
  rw [← hfinite, ← Bool.eq_iff_iff] at hfits
  have hfirst' : (whole.head? == some '0' && decide (1 < (withoutUnderscores whole).length)) =
      false := by
    rwa [Bool.eq_false_iff, ne_eq, Bool.and_eq_true, beq_iff_eq, decide_eq_true_eq]
  rw [float?, hdrop]
  simp only [hwhole.readDigits? hrest, hp, hreadPower, Option.bind_eq_bind, Option.bind_some,
    hvalue, hseparated, hseparated', hhead, hfirst', hfits]
  rfl

/-- What is read as a float has the parts of one; it has a mark of a float if it is no integer. -/
theorem floatText_of_float? {isFinite : Bool} (hsign : Sign sign negative) {value : List Char}
    (hvalue : NoSign value) (hmark : ∃ c ∈ value, c ≠ '_' ∧ c.isDigit = false)
    (h : float? (sign ++ value) = some isFinite) : FloatText (sign ++ value) isFinite := by
  obtain ⟨hdrop, -⟩ := hsign.drop hvalue
  rw [float?, hdrop] at h
  obtain ⟨⟨ds, rest⟩, hwhole, h⟩ := Option.bind_eq_some_iff.1 h
  obtain ⟨⟨p, rest'⟩, hplaces, h⟩ := Option.bind_eq_some_iff.1 h
  obtain ⟨⟨e, rest''⟩, hpower, h⟩ := Option.bind_eq_some_iff.1 h
  obtain ⟨hfaults, hfits⟩ := Option.ite_none_left_eq_some.1 h
  simp only [Bool.or_eq_true, Bool.and_eq_true, beq_iff_eq, decide_eq_true_eq, Bool.not_eq_true',
    List.isEmpty_eq_false_iff, not_or, Bool.not_eq_false, Decidable.not_not] at hfaults
  obtain ⟨⟨hfirst, hend⟩, hseparated⟩ := hfaults
  obtain ⟨whole, rfl, hdigits, rfl, -, hseparated⟩ := digits_of_readDigits? hwhole hseparated
  obtain ⟨places, rfl, hplacesText, hp, hseparated⟩ := places_of_readPlaces? hplaces hseparated
  rw [hend] at hpower
  have hhead : (whole ++ (places ++ rest')).head? = whole.head? := by
    obtain ⟨c, cs, rfl, -⟩ := hdigits.front
    rfl
  rw [hhead] at hfirst
  refine .decimal hsign hdigits (hdigits.noZero_iff.2 hfirst) hplacesText
    (power_of_readPower? hpower hseparated) (fun hnil => ?_) ?_
  · obtain ⟨c, hc, hunderscore, hdigit⟩ := hmark
    rw [hnil, List.append_nil] at hc
    obtain ⟨-, hchars, -, -⟩ := (digits_iff digitKind_ten rfl).1 hdigits
    rw [(hchars c hc).resolve_left hunderscore] at hdigit
    cases hdigit
  · rw [← Option.some.inj hfits]
    exact fitsBinary64_append_iff (fun c => hdigits.isDigit_of_mem) hp e

end Floats

end TvmDebug.Toml
