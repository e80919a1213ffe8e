import TvmDebug.Text.Digit
import TvmDebug.Text.Search
/-! # Parts of a text and the numbers they write

What stands somewhere in a text is an infix of it (`occursIn_iff`), what follows a literal is the
rest of the text after it (`dropLiteral?_eq_some_iff`), and a run of characters of one kind ends
where a character of another kind follows (`run_iff`).

A number is read from the digits that write it (`natOfDigits?_eq_some_iff`), and a machine word is
that number exactly when it has its value (`toUInt32?_eq_some_iff`, `toInt32?_eq_some_iff`). The
digits of a number write it (`writesNat_digits`), and a character is that of its code point
(`charOfCode?_toNat`). -/
set_option autoImplicit false

namespace TvmDebug.Text

/-! ## Literals -/

theorem occursIn_iff {part cs : List Char} : occursIn part cs = true ↔ part <:+: cs := by
  induction cs with
  | nil => simp [occursIn]
  | cons c cs ih => simp [occursIn, List.infix_cons_iff, ih]

theorem dropLiteral?_eq_some_iff {lit cs rest : List Char} :
    dropLiteral? lit cs = some rest ↔ cs = lit ++ rest := by
  induction lit generalizing cs with
  | nil => simp [dropLiteral?]
  | cons l lit ih =>
    cases cs with
    | nil => simp [dropLiteral?]
    | cons c cs =>
      by_cases hc : l = c
      · simp [dropLiteral?, hc, ih]
      · simp [dropLiteral?, hc, Ne.symm hc]

/-! ## Runs -/

section Run
variable {p : Char → Bool} {run rest : List Char}

/-- A text does not go on with a character of the kind. -/
def Ends (p : Char → Bool) (rest : List Char) : Prop := ∀ c, rest.head? = some c → p c = false

theorem ends_nil (p : Char → Bool) : Ends p [] := nofun

theorem ends_cons {c : Char} (h : p c = false) (rest : List Char) : Ends p (c :: rest) := by
  intro c' hc'
  rwa [← Option.some.inj hc']

theorem Ends.append {p : Char → Bool} (h : Ends p run) (hne : run ≠ []) (rest : List Char) :
    Ends p (run ++ rest) := by
  intro c hc
  rw [List.head?_append, List.head?_eq_some_head hne] at hc
  exact h c (List.head?_eq_some_head hne ▸ hc)

theorem ends_append {q : Char → Bool} (hpq : ∀ c, q c = true → p c = false) (hne : run ≠ [])
    (hrun : ∀ c ∈ run, q c = true) (rest : List Char) : Ends p (run ++ rest) := by
  have hends : Ends p run := fun c hc => hpq c (hrun c (List.mem_of_mem_head? hc))
  exact hends.append hne rest

theorem Ends.takeWhile_eq_nil (h : Ends p rest) : rest.takeWhile p = [] := by
  cases rest with
  | nil => rfl
  | cons c rest => simp [h c rfl]

theorem Ends.dropWhile_eq_self (h : Ends p rest) : rest.dropWhile p = rest := by
  cases rest with
  | nil => rfl
  | cons c rest => simp [h c rfl]

theorem ends_dropWhile (p : Char → Bool) (cs : List Char) : Ends p (cs.dropWhile p) := by
  intro c hc
  have h := List.head?_dropWhile_not p cs
  rwa [hc] at h

theorem run_iff {cs : List Char} :
    cs.takeWhile p = run ∧ cs.dropWhile p = rest ↔
      (∀ c ∈ run, p c = true) ∧ Ends p rest ∧ cs = run ++ rest := by
  constructor
  · rintro ⟨rfl, rfl⟩
    exact ⟨List.all_eq_true.1 List.all_takeWhile, ends_dropWhile p cs,
      List.takeWhile_append_dropWhile.symm⟩
  · rintro ⟨hrun, hrest, rfl⟩
    constructor
    · rw [List.takeWhile_append_of_pos hrun, hrest.takeWhile_eq_nil, List.append_nil]
    · rw [List.dropWhile_append_of_pos hrun, hrest.dropWhile_eq_self]

end Run

/-! ## Numbers -/

/-- A run of ASCII digits writes a number. -/
structure WritesNat (run : List Char) (n : Nat) : Prop where
  ne_nil : run ≠ []
  digits : ∀ c ∈ run, c.isDigit = true
  value : Nat.ofDigitChars 10 run 0 = n

theorem natOfDigits?_eq_some_iff {cs : List Char} {n : Nat} :
    natOfDigits? cs = some n ↔ WritesNat cs n := by
  constructor
  · intro h
    obtain ⟨⟨hne, hdigits⟩, hvalue⟩ : (cs ≠ [] ∧ ∀ c ∈ cs, c.isDigit = true) ∧
        Nat.ofDigitChars 10 cs 0 = n := by simpa [natOfDigits?] using h
    exact ⟨hne, hdigits, hvalue⟩
  · rintro ⟨hne, hdigits, rfl⟩
    have hall : cs.all Char.isDigit = true := List.all_eq_true.2 hdigits
    rw [natOfDigits?, hall, List.isEmpty_eq_false_iff.2 hne]
    rfl

theorem WritesNat.ne_minus {run : List Char} {n : Nat} (h : WritesNat run n)
    (rest cs : List Char) : run ++ rest ≠ '-' :: cs := by
  intro hcs
  have hends : Ends (· == '-') (run ++ rest) := by
    refine ends_append (fun c hc => ?_) h.ne_nil h.digits rest
    rw [beq_eq_false_iff_ne]
    rintro rfl
    exact absurd hc (by decide)
  rw [hcs] at hends
  exact absurd (hends '-' rfl) (by decide)

theorem writesNat_digits (n : Nat) : WritesNat (digits n) n :=
  ⟨Nat.toDigits_ne_nil, fun _ => Nat.isDigit_of_mem_toDigits (by decide) (by decide),
    Nat.ofDigitChars_toDigits (by decide) (by decide)⟩

/-- The digits of a number start with a zero only if that is all of them. -/
theorem eq_nil_of_digits {n : Nat} {cs : List Char} (h : digits n = '0' :: cs) : cs = [] := by
  induction n using Nat.strongRecOn generalizing cs with
  | ind n ih =>
    rw [digits, Nat.toDigits_eq_if (by decide)] at h
    split at h
    · exact (List.cons.inj h).2.symm
    · next hge =>
      -- All digits but the last write a tenth of the number, which is not zero.
      obtain ⟨c, ds, hds⟩ := List.exists_cons_of_ne_nil (writesNat_digits (n / 10)).ne_nil
      rw [← digits, hds, List.cons_append] at h
      rw [(List.cons.inj h).1] at hds
      obtain rfl := ih (n / 10) (by omega) hds
      have hzero : n / 10 = 0 := by
        rw [← (writesNat_digits (n / 10)).value, hds]
        rfl
      omega

theorem toUInt32?_eq_some_iff {n : Nat} {w : UInt32} : toUInt32? n = some w ↔ n = w.toNat := by
  unfold toUInt32?
  split
  · next h =>
    rw [Option.some.injEq, ← UInt32.toNat_inj, UInt32.toNat_ofNatLT]
  · next h =>
    refine iff_of_false nofun fun hn => h ?_
    rw [hn]
    exact w.toNat_lt

theorem toUInt64?_eq_some_iff {n : Nat} {w : UInt64} : toUInt64? n = some w ↔ n = w.toNat := by
  unfold toUInt64?
  split
  · next h =>
    rw [Option.some.injEq, ← UInt64.toNat_inj, UInt64.toNat_ofNatLT]
  · next h =>
    refine iff_of_false nofun fun hn => h ?_
    rw [hn]
    exact w.toNat_lt

theorem toInt32?_eq_some_iff {n : Int} {w : Int32} : toInt32? n = some w ↔ n = w.toInt := by
  unfold toInt32?
  have hlt := w.toInt_lt
  have hge := w.le_toInt
  split
  · next h =>
    rw [Option.some.injEq, ← Int32.toInt_inj, Int32.toInt_ofInt_of_le (by omega) (by omega)]
  · next h => exact iff_of_false nofun fun hn => h (by omega)

theorem charOfCode?_toNat (c : Char) : charOfCode? c.toNat = some c := by
  have hvalid : c.toNat.isValidChar := c.valid
  rw [charOfCode?, dif_pos hvalid]
  rfl

end TvmDebug.Text
