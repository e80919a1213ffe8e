import Mathlib.Data.String.Basic
/-! # Texts are ordered as their bytes are

In UTF-8 a code point is a first byte, which grows with it and tells how many bytes follow
(`FirstByte`), and digits to the base 64 (`laterBytes`). The bytes of two code points therefore part
before either ends, and in the direction of the code points (`Parts.of_lt`); so do the bytes of two
texts that part (`bytes_lt_bytes`). -/
set_option autoImplicit false

namespace TvmDebug.Text

/-- The bytes of a text in UTF-8. -/
def bytes (s : String) : List UInt8 := s.toUTF8.data.toList

theorem bytes_eq (s : String) : bytes s = s.toList.flatMap String.utf8EncodeChar := by
  rw [bytes, String.toUTF8_eq_toByteArray, ← String.utf8Encode_toList]
  simp [List.utf8Encode]

/-! ## Lists that part -/

/-- Two lists of bytes part before either ends, the first one downwards. -/
def Parts : List UInt8 → List UInt8 → Prop
  | x :: xs, y :: ys => x < y ∨ x = y ∧ Parts xs ys
  | _, _ => False

theorem Parts.append_lt {xs ys : List UInt8} (h : Parts xs ys) (xs' ys' : List UInt8) :
    xs ++ xs' < ys ++ ys' := by
  induction xs generalizing ys with
  | nil => exact h.elim
  | cons x xs ih =>
    cases ys with
    | nil => exact h.elim
    | cons y ys =>
      rw [List.cons_append, List.cons_append, List.cons_lt_cons_iff]
      rcases h with hlt | ⟨heq, hparts⟩
      · exact .inl hlt
      · exact .inr ⟨heq, ih hparts⟩

theorem Parts.cons {m n : Nat} {xs ys : List UInt8} (hn : n < 256)
    (h : m < n ∨ m = n ∧ Parts xs ys) :
    Parts (UInt8.ofNat m :: xs) (UInt8.ofNat n :: ys) := by
  rcases h with hlt | ⟨rfl, hparts⟩
  · refine .inl (UInt8.lt_iff_toNat_lt.2 ?_)
    rw [UInt8.toNat_ofNat', UInt8.toNat_ofNat']
    omega
  · exact .inr ⟨rfl, hparts⟩

/-! ## The bytes of a code point -/

/-- The last `k` digits of a code point to the base 64, each as a byte that is none of the first. -/
def laterBytes : Nat → Nat → List UInt8
  | 0, _ => []
  | k + 1, v => UInt8.ofNat (v / 64 ^ k % 64 + 128) :: laterBytes k v

/-- The first byte of code point `v`, which `k` others follow, is `m`. -/
def FirstByte (v k m : Nat) : Prop :=
  (k = 0 ∧ v < 128 ∧ m = v) ∨
  (k = 1 ∧ 128 ≤ v ∧ v < 2048 ∧ m = v / 64 ^ k + 192) ∨
  (k = 2 ∧ 2048 ≤ v ∧ v < 65536 ∧ m = v / 64 ^ k + 224) ∨
  (k = 3 ∧ 65536 ≤ v ∧ v < 1114112 ∧ m = v / 64 ^ k + 240)

theorem parts_laterBytes {k v w : Nat} (h : v < w) (hrest : v / 64 ^ k = w / 64 ^ k) :
    Parts (laterBytes k v) (laterBytes k w) := by
  induction k with
  | zero =>
    rw [Nat.pow_zero, Nat.div_one, Nat.div_one] at hrest
    omega
  | succ k ih =>
    rw [Nat.pow_succ, ← Nat.div_div_eq_div_mul, ← Nat.div_div_eq_div_mul] at hrest
    have hle : v / 64 ^ k ≤ w / 64 ^ k := Nat.div_le_div_right h.le
    refine Parts.cons (by omega) ?_
    by_cases heq : v / 64 ^ k = w / 64 ^ k
    · exact .inr ⟨by rw [heq], ih heq⟩
    · exact .inl (by omega)

theorem exists_firstByte (c : Char) : ∃ k m, FirstByte c.val.toNat k m ∧
    String.utf8EncodeChar c = UInt8.ofNat m :: laterBytes k c.val.toNat := by
  have hvalid : c.val.toNat < 1114112 := by
    have := c.valid
    simp only [UInt32.isValidChar, Nat.isValidChar] at this
    omega
  generalize hv : c.val.toNat = v at hvalid
  simp only [String.utf8EncodeChar, hv]
  split
  · exact ⟨0, v, .inl ⟨rfl, by omega, rfl⟩, rfl⟩
  · split
    · refine ⟨1, _, .inr (.inl ⟨rfl, by omega, by omega, rfl⟩), ?_⟩
      have hfirst : v / 64 % 32 = v / 64 := Nat.mod_eq_of_lt (by omega)
      simp [laterBytes, hfirst]
    · split
      · refine ⟨2, _, .inr (.inr (.inl ⟨rfl, by omega, by omega, rfl⟩)), ?_⟩
        have hfirst : v / 4096 % 16 = v / 4096 := Nat.mod_eq_of_lt (by omega)
        simp [laterBytes, hfirst]
      · refine ⟨3, _, .inr (.inr (.inr ⟨rfl, by omega, hvalid, rfl⟩)), ?_⟩
        have hfirst : v / 262144 % 8 = v / 262144 := Nat.mod_eq_of_lt (by omega)
        simp [laterBytes, hfirst]

theorem FirstByte.lt {v k m : Nat} (h : FirstByte v k m) : m < 256 := by
  rcases h with ⟨rfl, h⟩ | ⟨rfl, h⟩ | ⟨rfl, h⟩ | ⟨rfl, h⟩ <;> omega

/-- First bytes grow with the code point; where they are the same, so is the number of bytes. -/
theorem FirstByte.lt_or_eq {v w k l m n : Nat} (hv : FirstByte v k m) (hw : FirstByte w l n)
    (h : v < w) : m < n ∨ m = n ∧ k = l ∧ v / 64 ^ k = w / 64 ^ k := by
  rcases hv with ⟨rfl, hv⟩ | ⟨rfl, hv⟩ | ⟨rfl, hv⟩ | ⟨rfl, hv⟩ <;>
    rcases hw with ⟨rfl, hw⟩ | ⟨rfl, hw⟩ | ⟨rfl, hw⟩ | ⟨rfl, hw⟩ <;> omega

theorem Parts.of_lt {c d : Char} (h : c < d) :
    Parts (String.utf8EncodeChar c) (String.utf8EncodeChar d) := by
  have hlt : c.val.toNat < d.val.toNat := h
  obtain ⟨k, m, hc, hbytes⟩ := exists_firstByte c
  obtain ⟨l, n, hd, hbytes'⟩ := exists_firstByte d
  rw [hbytes, hbytes']
  refine Parts.cons hd.lt ?_
  rcases hc.lt_or_eq hd hlt with hfirst | ⟨hfirst, rfl, hrest⟩
  · exact .inl hfirst
  · exact .inr ⟨hfirst, parts_laterBytes hlt hrest⟩

/-! ## The bytes of a text -/

theorem flatMap_lt {cs ds : List Char} (h : cs < ds) :
    cs.flatMap String.utf8EncodeChar < ds.flatMap String.utf8EncodeChar := by
  induction cs generalizing ds with
  | nil =>
    cases ds with
    | nil => exact absurd h (List.not_lt_nil [])
    | cons d ds =>
      obtain ⟨x, xs, hd⟩ := List.exists_cons_of_ne_nil (String.utf8EncodeChar_ne_nil (c := d))
      rw [List.flatMap_cons, hd]
      exact List.nil_lt_cons x _
  | cons c cs ih =>
    cases ds with
    | nil => exact absurd h (List.not_lt_nil _)
    | cons d ds =>
      rw [List.flatMap_cons, List.flatMap_cons]
      rcases List.cons_lt_cons_iff.1 h with hlt | ⟨rfl, htail⟩
      · exact (Parts.of_lt hlt).append_lt _ _
      · exact List.append_left_lt (ih htail)

/-- Code points order texts as their bytes do. -/
theorem bytes_lt_bytes {s t : String} (h : s < t) : bytes s < bytes t := by
  rw [bytes_eq, bytes_eq]
  exact flatMap_lt (String.lt_iff_toList_lt.1 h)

end TvmDebug.Text
