import TvmDebug.Json.Reader
import TvmDebug.Proofs.Text.Parts
/-! # The spelling of a text reads as the text

A character is spelled in one of three ways (`EscapesTo`), and each is read back: as the character
that it stands for (`EscapesTo.unescape?`), and by the reader of strings as one unit of a spelling
(`EscapesTo.readString`). Texts follow by induction. -/
set_option autoImplicit false

namespace TvmDebug.Json

open Text

/-- How a character is spelled: by an escape of one letter, by its code, or by itself. -/
inductive EscapesTo (c : Char) : List Char → Prop
  | letter {e : Char} (he : escapedChar? e = some c) : EscapesTo c ['\\', e]
  | code (hc : c.toNat < 0x20) : EscapesTo c ('\\' :: 'u' :: hexOfControl c)
  | itself (hquote : c ≠ '"') (hslash : c ≠ '\\') (hc : ¬ c.toNat < 0x20) : EscapesTo c [c]

theorem escapesTo_escapeChar (c : Char) : EscapesTo c (escapeChar c) := by
  unfold escapeChar
  split
  · exact .letter (by subst c; rfl)
  split
  · exact .letter (by subst c; rfl)
  split
  · exact .letter (by subst c; rfl)
  split
  · exact .letter (by subst c; rfl)
  split
  · exact .letter (by subst c; rfl)
  split
  · exact .letter (by subst c; rfl)
  split
  · exact .letter (by subst c; rfl)
  split
  · next h => exact .code h
  · next hquote hslash _ _ _ _ _ h => exact .itself hquote hslash h

theorem ne_of_escapedChar? {e c : Char} (he : escapedChar? e = some c) : e ≠ 'u' := by
  rintro rfl
  cases he

theorem hexNumber?_control :
    ∀ n < 0x20, hexNumber? ['0', '0', Nat.digitChar (n / 16), Nat.digitChar (n % 16)] = some n := by
  decide

/-! ## The text of a spelling -/

theorem EscapesTo.unescape? {c : Char} {s : List Char} (h : EscapesTo c s) (cs : List Char) :
    unescape? (s ++ cs) = (unescape? cs).map (c :: ·) := by
  change unescapeFrom? none (s ++ cs) = (unescapeFrom? none cs).map (c :: ·)
  cases h with
  | @letter e he =>
    have hread := unescapeFrom?.eq_3 e cs fun _ _ _ _ _ hu => absurd hu (ne_of_escapedChar? he)
    rw [he] at hread
    exact hread.trans Option.map_eq_bind.symm
  | code hc =>
    have hread := unescapeFrom?.eq_2 '0' '0' (Nat.digitChar (c.toNat / 16))
      (Nat.digitChar (c.toNat % 16)) cs
    have hlow : isHighSurrogate c.toNat = false := by
      rw [isHighSurrogate, Bool.and_eq_false_iff, decide_eq_false_iff_not]
      omega
    rw [hexNumber?_control c.toNat hc, Option.bind_eq_bind, Option.bind_some, hlow,
      charOfCode?_toNat] at hread
    exact hread.trans Option.map_eq_bind.symm
  | itself _ hslash _ =>
    have hread := unescapeFrom?.eq_4 c cs (fun _ _ _ _ _ hc => absurd hc hslash)
      fun _ _ hc => absurd hc hslash
    exact hread.trans Option.map_eq_bind.symm

theorem unescape?_escape (cs : List Char) : unescape? (escape cs) = some cs := by
  induction cs with
  | nil => rfl
  | cons c cs ih =>
    rw [escape, List.flatMap_cons, (escapesTo_escapeChar c).unescape?, ← escape, ih]
    rfl

/-! ## The end of a spelling -/

theorem EscapesTo.readString {c : Char} {s : List Char} (h : EscapesTo c s) (cs : List Char) :
    readString (s ++ cs) = (readString cs).map fun (s', rest) => (s ++ s', rest) := by
  cases h with
  | @letter e he =>
    have hread := readString.eq_4 e cs fun _ _ _ _ _ hu => absurd hu (ne_of_escapedChar? he)
    rw [he] at hread
    exact hread.trans Option.map_eq_bind.symm
  | code hc =>
    have hread := readString.eq_3 '0' '0' (Nat.digitChar (c.toNat / 16))
      (Nat.digitChar (c.toNat % 16)) cs
    rw [hexNumber?_control c.toNat hc] at hread
    exact hread.trans Option.map_eq_bind.symm
  | itself hquote hslash hc =>
    have hread := readString.eq_5 c cs hquote (fun _ _ _ _ _ hc => absurd hc hslash)
      fun _ _ hc => absurd hc hslash
    have hplain : (decide (c.toNat < 0x20) || c == '\\') = false := by
      rw [Bool.or_eq_false_iff, decide_eq_false_iff_not, beq_eq_false_iff_ne]
      exact ⟨hc, hslash⟩
    rw [hplain] at hread
    exact hread.trans Option.map_eq_bind.symm

theorem readString_escape (cs rest : List Char) :
    readString (escape cs ++ '"' :: rest) = some (escape cs, rest) := by
  induction cs with
  | nil => rfl
  | cons c cs ih =>
    rw [escape, List.flatMap_cons, List.append_assoc, (escapesTo_escapeChar c).readString,
      ← escape, ih]
    rfl

end TvmDebug.Json
