import Mathlib.Algebra.Order.BigOperators.Group.List
import Mathlib.Algebra.Order.Ring.Nat
import TvmDebug.Trace.Gas
/-! # Gas sums do not wrap

No step counts more than `gasLimit`, so that the gas of a trace of fewer than `2 ^ 64 / 5000` steps
fits 64 bits (`exactGas_lt`). Where it does, more steps have not used less gas (`gasBefore_le`).

`gasBefore?` is the sum that ends where an addition does not fit 64 bits. It is the number that the
steps cost together wherever that number fits (`gasBefore?_eq_some_iff`), and `PrefixSums` says of
any list of steps how its sums go along it. -/
set_option autoImplicit false

namespace TvmDebug

/-- What steps cost together, as a number of any size. -/
def exactGas (steps : List Step) : Nat := (steps.map fun s => s.gas.toNat).sum

theorem Step.gas_le (s : Step) : s.gas.toNat ≤ 5000 := by
  unfold Step.gas
  split
  · decide
  · next h => exact UInt64.le_iff_toNat_le.1 (UInt64.not_lt.1 h)

theorem exactGas_lt {steps : List Step} (h : steps.length * 5000 < 2 ^ 64) :
    exactGas steps < 2 ^ 64 := by
  have hle : ∀ g ∈ steps.map (fun s => s.gas.toNat), g ≤ 5000 := by
    intro g hg
    obtain ⟨s, -, rfl⟩ := List.mem_map.1 hg
    exact s.gas_le
  have hsum := List.sum_le_card_nsmul _ 5000 hle
  rw [List.length_map, Nat.nsmul_eq_mul] at hsum
  exact Nat.lt_of_le_of_lt hsum h

theorem toNat_foldl_gas {steps : List Step} {sum : UInt64}
    (h : sum.toNat + exactGas steps < 2 ^ 64) :
    (steps.foldl (fun sum s => sum + s.gas) sum).toNat = sum.toNat + exactGas steps := by
  induction steps generalizing sum with
  | nil => rfl
  | cons s steps ih =>
    have hcons : exactGas (s :: steps) = s.gas.toNat + exactGas steps := List.sum_cons
    have hadd : (sum + s.gas).toNat = sum.toNat + s.gas.toNat := by
      rw [UInt64.toNat_add]
      omega
    rw [List.foldl_cons, ih (by omega), hadd, hcons, Nat.add_assoc]

theorem exactGas_le_of_sublist {steps steps' : List Step} (h : steps.Sublist steps') :
    exactGas steps ≤ exactGas steps' := by
  have hmap : (steps.map fun s => s.gas.toNat).Sublist (steps'.map fun s => s.gas.toNat) :=
    h.map _
  exact hmap.sum_le_sum fun _ _ => Nat.zero_le _

theorem toNat_gasBefore {steps : List Step} (h : exactGas steps < 2 ^ 64) (i : Nat) :
    (gasBefore steps i).toNat = exactGas (steps.take i) := by
  have hi := exactGas_le_of_sublist (List.take_sublist i steps)
  have hzero : (0 : UInt64).toNat = 0 := rfl
  have hfits : (0 : UInt64).toNat + exactGas (steps.take i) < 2 ^ 64 := by omega
  rw [gasBefore, sumGas, toNat_foldl_gas hfits, hzero, Nat.zero_add]

/-- Gas only grows along a trace. -/
theorem gasBefore_le {steps : List Step} (h : exactGas steps < 2 ^ 64) {i j : Nat} (hij : i ≤ j) :
    gasBefore steps i ≤ gasBefore steps j := by
  rw [UInt64.le_iff_toNat_le, toNat_gasBefore h, toNat_gasBefore h]
  exact exactGas_le_of_sublist (List.take_prefix_take_left hij).sublist

/-! ## Sums that may not fit -/

/-- Adds the gas of a step, if the sum fits 64 bits. -/
def addGas? (sum : UInt64) (s : Step) : Option UInt64 :=
  if sum.toNat + s.gas.toNat < 2 ^ 64 then some (sum + s.gas) else none

/-- What the first `n` steps cost together, if every addition on the way fits 64 bits. -/
def gasBefore? (steps : List Step) (n : Nat) : Option UInt64 := (steps.take n).foldlM addGas? 0

theorem foldlM_addGas? (steps : List Step) (sum : UInt64) :
    steps.foldlM addGas? sum = if sum.toNat + exactGas steps < 2 ^ 64 then
      some (steps.foldl (fun sum s => sum + s.gas) sum) else none := by
  induction steps generalizing sum with
  | nil =>
    have hfits : sum.toNat + exactGas [] < 2 ^ 64 := sum.toNat_lt
    rw [if_pos hfits]
    rfl
  | cons s steps ih =>
    have hcons : exactGas (s :: steps) = s.gas.toNat + exactGas steps := List.sum_cons
    rw [List.foldlM_cons, List.foldl_cons, addGas?, hcons, ← Nat.add_assoc]
    by_cases hadd : sum.toNat + s.gas.toNat < 2 ^ 64
    · have hsum : (sum + s.gas).toNat = sum.toNat + s.gas.toNat := by
        rw [UInt64.toNat_add, Nat.mod_eq_of_lt hadd]
      rw [if_pos hadd, ← hsum]
      exact ih (sum + s.gas)
    · -- What does not fit now does not fit with the rest of the steps.
      have hall : ¬ sum.toNat + s.gas.toNat + exactGas steps < 2 ^ 64 := by omega
      rw [if_neg hadd, if_neg hall]
      rfl

theorem gasBefore?_eq (steps : List Step) (n : Nat) :
    gasBefore? steps n =
      if exactGas (steps.take n) < 2 ^ 64 then some (gasBefore steps n) else none := by
  have hzero : (0 : UInt64).toNat = 0 := rfl
  rw [gasBefore?, foldlM_addGas?, hzero, Nat.zero_add]
  rfl

theorem gasBefore?_of_fits {steps : List Step} {n : Nat} (h : exactGas (steps.take n) < 2 ^ 64) :
    gasBefore? steps n = some (gasBefore steps n) := by
  rw [gasBefore?_eq, if_pos h]

theorem gasBefore?_eq_some_iff {steps : List Step} {n : Nat} {g : UInt64} :
    gasBefore? steps n = some g ↔ g.toNat = exactGas (steps.take n) := by
  have hexact : exactGas (steps.take n) < 2 ^ 64 →
      (gasBefore steps n).toNat = exactGas (steps.take n) := by
    intro hfits
    have htoNat := toNat_gasBefore hfits n
    rwa [gasBefore, List.take_take, Nat.min_self] at htoNat
  rw [gasBefore?_eq, Option.ite_none_right_eq_some, Option.some.injEq]
  constructor
  · rintro ⟨hfits, rfl⟩
    exact hexact hfits
  · intro hg
    have hfits : exactGas (steps.take n) < 2 ^ 64 := hg ▸ g.toNat_lt
    exact ⟨hfits, UInt64.toNat_inj.1 ((hexact hfits).trans hg.symm)⟩

/-! ## Sums along a list of steps -/

theorem gasBefore_succ {steps : List Step} {n : Nat} {s : Step} (h : steps[n]? = some s) :
    gasBefore steps (n + 1) = gasBefore steps n + s.gas := by
  rw [gasBefore, sumGas, List.take_add_one, h, List.foldl_append]
  rfl

theorem exactGas_take_succ {steps : List Step} {n : Nat} {s : Step} (h : steps[n]? = some s) :
    exactGas (steps.take (n + 1)) = exactGas (steps.take n) + s.gas.toNat := by
  rw [exactGas, List.take_add_one, h, List.map_append, List.sum_append]
  exact congrArg (exactGas (steps.take n) + ·) (List.sum_singleton ..)

theorem gasBefore_of_length_le {steps : List Step} {n : Nat} (h : steps.length ≤ n) :
    gasBefore steps n = totalGas steps := by
  rw [totalGas, gasBefore, gasBefore, List.take_of_length_le h, List.take_length]

theorem foldl_gas (steps : List Step) (sum : UInt64) :
    steps.foldl (fun sum s => sum + s.gas) sum = sum + sumGas steps := by
  induction steps generalizing sum with
  | nil => exact (UInt64.add_zero sum).symm
  | cons s steps ih =>
    rw [sumGas, List.foldl_cons, List.foldl_cons, ih, ih (0 + s.gas), UInt64.zero_add,
      UInt64.add_assoc]

theorem gasBefore_append (steps more : List Step) (n : Nat) :
    gasBefore (steps ++ more) (steps.length + n) = totalGas steps + gasBefore more n := by
  rw [gasBefore, List.take_length_add_append, sumGas, List.foldl_append, foldl_gas, totalGas,
    gasBefore, List.take_length]
  rfl

theorem gasBefore?_of_length_le {steps : List Step} (h : steps.length ≤ (2 ^ 64 - 1) / 5000)
    (n : Nat) : gasBefore? steps n = some (gasBefore steps n) := by
  have hall : exactGas steps < 2 ^ 64 := exactGas_lt (by omega)
  have hle := exactGas_le_of_sublist (List.take_sublist n steps)
  exact gasBefore?_of_fits (Nat.lt_of_le_of_lt hle hall)

/-- How the sums of gas go along a list of steps. -/
structure PrefixSums (steps : List Step) : Prop where
  add : ∀ n s, steps[n]? = some s → gasBefore steps (n + 1) = gasBefore steps n + s.gas
  rest : ∀ n, steps.length ≤ n → gasBefore steps n = totalGas steps
  append : ∀ more n,
    gasBefore (steps ++ more) (steps.length + n) = totalGas steps + gasBefore more n
  exact : ∀ n g, gasBefore? steps n = some g ↔ g.toNat = exactGas (steps.take n)
  unwrapped : ∀ n g, gasBefore? steps n = some g → gasBefore steps n = g
  mono : ∀ m n g, m ≤ n → gasBefore? steps n = some g →
    ∃ less, gasBefore? steps m = some less ∧ less ≤ g
  fits : steps.length ≤ (2 ^ 64 - 1) / 5000 → ∀ n, gasBefore? steps n = some (gasBefore steps n)

theorem prefixSums (steps : List Step) : PrefixSums steps where
  add := fun _ _ => gasBefore_succ
  rest := fun _ => gasBefore_of_length_le
  append := gasBefore_append steps
  exact := fun _ _ => gasBefore?_eq_some_iff
  unwrapped := by
    intro n g h
    rw [gasBefore?_eq] at h
    exact Option.some.inj (Option.ite_none_right_eq_some.1 h).2
  mono := by
    intro m n g hmn h
    have hle : exactGas (steps.take m) ≤ exactGas (steps.take n) :=
      exactGas_le_of_sublist (List.take_prefix_take_left hmn).sublist
    have hg := gasBefore?_eq_some_iff.1 h
    have hless := gasBefore?_of_fits (Nat.lt_of_le_of_lt hle (hg ▸ g.toNat_lt))
    refine ⟨gasBefore steps m, hless, ?_⟩
    rw [UInt64.le_iff_toNat_le, gasBefore?_eq_some_iff.1 hless, hg]
    exact hle
  fits := gasBefore?_of_length_le

end TvmDebug
