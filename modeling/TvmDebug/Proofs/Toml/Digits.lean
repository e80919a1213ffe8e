import Mathlib.Data.List.Forall2
import TvmDebug.Proofs.Text.Parts
import TvmDebug.Proofs.Toml.Grammar
import TvmDebug.Toml.Number
/-! # Digits are read as they count

The digits of each base are the characters of one kind, and their values those that the readers
compute with (`DigitKind`). Digits with underscores are told by where the underscores stand
(`digits_iff`), and numbers of a fixed size by their length (`figures_iff`). -/
set_option autoImplicit false

namespace TvmDebug.Toml

open Text

/-! ## Digits of a base -/

/-- The digits of the base are the characters of the kind. -/
structure DigitKind (base : Nat) (kind : Char → Bool) : Prop where
  iff : ∀ c d, IsDigit base c d ↔ kind c = true ∧ hexValue c = d

theorem digitKind_of_tables {base : Nat} {kind : Char → Bool}
    (hlow : ∀ c, kind c = true → c.toNat < 0x80)
    (hchars : ∀ n < 0x80, kind (Char.ofNat n) = true → hexValue (Char.ofNat n) < base ∧
      (Char.ofNat n = Nat.digitChar (hexValue (Char.ofNat n)) ∨
        Char.ofNat n = (Nat.digitChar (hexValue (Char.ofNat n))).toUpper))
    (hdigits : ∀ d < base, (kind (Nat.digitChar d) = true ∧ hexValue (Nat.digitChar d) = d) ∧
      kind (Nat.digitChar d).toUpper = true ∧ hexValue (Nat.digitChar d).toUpper = d) :
    DigitKind base kind where
  iff := by
    intro c d
    constructor
    · rintro ⟨hd, rfl | rfl⟩
      · exact (hdigits d hd).1
      · exact (hdigits d hd).2
    · rintro ⟨hc, rfl⟩
      have htable := hchars c.toNat (hlow c hc)
      rw [Char.ofNat_toNat] at htable
      exact htable hc

theorem toNat_lt_of_isHexDigit {c : Char} (h : isHexDigit c = true) : c.toNat < 0x80 := by
  have hle : ∀ d : Char, c ≤ d → d.toNat < 0x80 → c.toNat < 0x80 := fun d hcd hd =>
    Nat.lt_of_le_of_lt (UInt32.le_iff_toNat_le.1 hcd) hd
  simp only [isHexDigit, Char.isDigit, Bool.or_eq_true, Bool.and_eq_true, decide_eq_true_eq] at h
  rcases h with (⟨-, h⟩ | ⟨-, h⟩) | ⟨-, h⟩
  · exact hle '9' h (by decide)
  · exact hle 'f' h (by decide)
  · exact hle 'F' h (by decide)

theorem digitKind_sixteen : DigitKind 16 isHexDigit :=
  digitKind_of_tables (fun _ => toNat_lt_of_isHexDigit) (by decide) (by decide)

theorem isHexDigit_of_isDigit {c : Char} (h : c.isDigit = true) : isHexDigit c = true := by
  rw [isHexDigit, h, Bool.true_or, Bool.true_or]

theorem digitKind_ten : DigitKind 10 Char.isDigit :=
  digitKind_of_tables (fun _ h => toNat_lt_of_isHexDigit (isHexDigit_of_isDigit h)) (by decide)
    (by decide)

theorem digitKind_eight : DigitKind 8 isOctalDigit := by
  refine digitKind_of_tables (fun c h => ?_) (by decide) (by decide)
  simp only [isOctalDigit, Bool.and_eq_true, decide_eq_true_eq] at h
  exact Nat.lt_of_le_of_lt (UInt32.le_iff_toNat_le.1 h.2) (by decide)

theorem digitKind_two : DigitKind 2 isBinaryDigit := by
  refine digitKind_of_tables (fun c h => ?_) (by decide) (by decide)
  simp only [isBinaryDigit, Bool.or_eq_true, beq_iff_eq] at h
  rcases h with rfl | rfl <;> decide

section Kind
variable {base n : Nat} {kind : Char → Bool} {c : Char} {cs text : List Char} {ds : List Nat}

theorem DigitKind.exists_iff (h : DigitKind base kind) : (∃ d, IsDigit base c d) ↔ kind c = true :=
  ⟨fun ⟨_, hd⟩ => ((h.iff c _).1 hd).1, fun hc => ⟨_, (h.iff c _).2 ⟨hc, rfl⟩⟩⟩

theorem DigitKind.forall₂_iff (h : DigitKind base kind) :
    List.Forall₂ (IsDigit base) text ds ↔ (∀ c ∈ text, kind c = true) ∧ ds = text.map hexValue := by
  induction text generalizing ds with
  | nil => simp [List.forall₂_nil_left_iff]
  | cons c text ih =>
    cases ds with
    | nil => simp [List.forall₂_nil_right_iff]
    | cons d ds =>
      rw [List.forall₂_cons, h.iff, ih, List.forall_mem_cons, List.map_cons, List.cons.injEq]
      constructor
      · rintro ⟨⟨hc, rfl⟩, htext, rfl⟩
        exact ⟨⟨hc, htext⟩, rfl, rfl⟩
      · rintro ⟨⟨hc, htext⟩, rfl, rfl⟩
        exact ⟨⟨hc, rfl⟩, htext, rfl⟩

/-! ## Numbers -/

theorem number_eq (base : Nat) (ds : List Nat) :
    number base ds = ds.foldl (fun n d => base * n + d) 0 := by
  rw [number, Nat.ofDigits_eq_foldr, List.foldr_reverse]
  congr 1
  funext n d
  exact Nat.add_comm d (base * n)

theorem inBase_eq (base : Nat) (cs : List Char) :
    inBase base cs = number base (cs.map hexValue) := by
  rw [number_eq, List.foldl_map]
  rfl

theorem foldl_hexValue (h : ∀ c ∈ cs, c.isDigit = true) (n : Nat) :
    cs.foldl (fun n c => 10 * n + hexValue c) n = Nat.ofDigitChars 10 cs n := by
  induction cs generalizing n with
  | nil => rfl
  | cons c cs ih =>
    obtain ⟨hc, hcs⟩ := List.forall_mem_cons.1 h
    rw [List.foldl_cons, ih hcs, Nat.ofDigitChars_cons, hexValue, if_pos hc]

theorem ofDigitChars_eq (h : ∀ c ∈ cs, c.isDigit = true) :
    Nat.ofDigitChars 10 cs 0 = number 10 (cs.map hexValue) :=
  (foldl_hexValue h 0).symm.trans (inBase_eq 10 cs)

theorem hexNumber?_eq_some_iff :
    hexNumber? cs = some n ↔ ∃ ds, List.Forall₂ (IsDigit 16) cs ds ∧ number 16 ds = n := by
  simp only [digitKind_sixteen.forall₂_iff, exists_and_left, and_assoc, exists_eq_left,
    hexNumber?, Option.ite_none_right_eq_some, List.all_eq_true, Option.some.injEq]
  rw [← inBase_eq]
  rfl

/-- Numbers of a fixed size. -/
theorem figures_iff {size : Nat} (hsize : size ≠ 0) :
    Figures size text n ↔ text.length = size ∧ natOfDigits? text = some n := by
  refine and_congr_right fun hlength => ?_
  have hne : text ≠ [] := by
    rintro rfl
    exact hsize hlength.symm
  simp only [digitKind_ten.forall₂_iff]
  rw [natOfDigits?_eq_some_iff]
  constructor
  · rintro ⟨_, ⟨hdigits, rfl⟩, hn⟩
    exact ⟨hne, hdigits, (ofDigitChars_eq hdigits).trans hn⟩
  · rintro ⟨-, hdigits, hn⟩
    exact ⟨_, ⟨hdigits, rfl⟩, (ofDigitChars_eq hdigits).symm.trans hn⟩

/-! ## Underscores -/

theorem ne_underscore (hunderscore : kind '_' = false) (hc : kind c = true) : c ≠ '_' := by
  rintro rfl
  rw [hc] at hunderscore
  cases hunderscore

theorem areSeparated_digit (hc : kind c = true) (hunderscore : kind '_' = false) (after : Bool) :
    areSeparated kind after (c :: cs) = areSeparated kind true cs := by
  rw [areSeparated, if_neg (ne_underscore hunderscore hc), hc]

theorem withoutUnderscores_cons (h : c ≠ '_') :
    withoutUnderscores (c :: cs) = c :: withoutUnderscores cs := by
  rw [withoutUnderscores, withoutUnderscores, List.filter_cons_of_pos]
  exact bne_iff_ne.2 h

section Shape
variable (h : DigitKind base kind) (hunderscore : kind '_' = false)
include h hunderscore

theorem shape_of_digits (hdigits : Digits base text ds) (after : Bool) :
    (∀ c ∈ text, c = '_' ∨ kind c = true) ∧ areSeparated kind after text = true ∧
      ds = (withoutUnderscores text).map hexValue := by
  induction hdigits generalizing after with
  | one hc =>
    obtain ⟨hkind, rfl⟩ := (h.iff _ _).1 hc
    refine ⟨by simpa using .inr hkind, areSeparated_digit hkind hunderscore after, ?_⟩
    rw [withoutUnderscores_cons (ne_underscore hunderscore hkind)]
    rfl
  | cons hc hdigits ih =>
    obtain ⟨hkind, rfl⟩ := (h.iff _ _).1 hc
    obtain ⟨hchars, hseparated, rfl⟩ := ih true
    refine ⟨List.forall_mem_cons.2 ⟨.inr hkind, hchars⟩, ?_, ?_⟩
    · rw [areSeparated_digit hkind hunderscore, hseparated]
    · rw [withoutUnderscores_cons (ne_underscore hunderscore hkind)]
      rfl
  | @underscore c d text ds hc hdigits ih =>
    obtain ⟨hkind, rfl⟩ := (h.iff _ _).1 hc
    have hhead : text.head?.any kind = true := by
      cases hdigits with
      | one hc | cons hc | underscore hc => exact ((h.iff _ _).1 hc).1
    obtain ⟨hchars, hseparated, rfl⟩ := ih false
    refine ⟨List.forall_mem_cons.2 ⟨.inr hkind, List.forall_mem_cons.2 ⟨.inl rfl, hchars⟩⟩,
      ?_, ?_⟩
    · rw [areSeparated_digit hkind hunderscore, areSeparated, if_pos rfl, hhead, hseparated]
      rfl
    · rw [withoutUnderscores_cons (ne_underscore hunderscore hkind)]
      rfl

/-- An underscore is taken together with the digit in front of it. -/
theorem digits_of_shape (htext : text ≠ []) (hchars : ∀ c ∈ text, c = '_' ∨ kind c = true)
    (hseparated : areSeparated kind false text = true) :
    Digits base text ((withoutUnderscores text).map hexValue) := by
  induction hlength : text.length using Nat.strongRecOn generalizing text with
  | ind size ih =>
    obtain ⟨c, text, rfl⟩ := List.exists_cons_of_ne_nil htext
    obtain ⟨hc, hchars⟩ := List.forall_mem_cons.1 hchars
    have hkind : kind c = true := by
      refine hc.resolve_left ?_
      rintro rfl
      rw [areSeparated, if_pos rfl] at hseparated
      cases hseparated
    have hdigit := (h.iff c _).2 ⟨hkind, rfl⟩
    rw [areSeparated_digit hkind hunderscore] at hseparated
    rw [withoutUnderscores_cons (ne_underscore hunderscore hkind), List.map_cons]
    rw [List.length_cons] at hlength
    cases text with
    | nil => exact .one hdigit
    | cons c' text =>
      obtain ⟨hc', hchars'⟩ := List.forall_mem_cons.1 hchars
      rw [List.length_cons] at hlength
      by_cases hmark : c' = '_'
      · subst hmark
        rw [areSeparated, if_pos rfl, Bool.true_and, Bool.and_eq_true] at hseparated
        have htext' : text ≠ [] := by
          rintro rfl
          cases hseparated.1
        exact .underscore hdigit (ih _ (by omega) htext' hchars' hseparated.2 rfl)
      · have hkind' := hc'.resolve_left hmark
        rw [areSeparated_digit hkind' hunderscore] at hseparated
        have hseparated' : areSeparated kind false (c' :: text) = true := by
          rwa [areSeparated_digit hkind' hunderscore]
        exact .cons hdigit
          (ih (text.length + 1) (by omega) (List.cons_ne_nil _ _) hchars hseparated' rfl)

/-- Digits with underscores between them. -/
theorem digits_iff :
    Digits base text ds ↔ text ≠ [] ∧ (∀ c ∈ text, c = '_' ∨ kind c = true) ∧
      areSeparated kind false text = true ∧ ds = (withoutUnderscores text).map hexValue := by
  constructor
  · intro hdigits
    exact ⟨by cases hdigits <;> exact List.cons_ne_nil _ _,
      shape_of_digits h hunderscore hdigits false⟩
  · rintro ⟨htext, hchars, hseparated, rfl⟩
    exact digits_of_shape h hunderscore htext hchars hseparated

end Shape

end Kind

end TvmDebug.Toml
