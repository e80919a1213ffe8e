import TvmDebug.Proofs.Toml.DateTime
import TvmDebug.Proofs.Toml.Number
import TvmDebug.Proofs.Toml.Quoted
/-! # Where words end

The reader takes a word up to the next mark and leaves out the blanks behind it; a blank inside it
may not stand before a quotation mark (`KeepsBlanks`). All words of the grammar are taken so
(`ScalarText.isWord`). -/
set_option autoImplicit false

namespace TvmDebug.Toml

open Text

/-! ## Blanks in a word -/

section Blanks
variable {cs before after : List Char} {c : Char}

/-- Every blank is followed by what is no quotation mark. -/
def KeepsBlanks (cs : List Char) : Prop :=
  ∀ before c after, cs = before ++ c :: after → IsBlank c →
    ∃ d, after.head? = some d ∧ d ≠ '"' ∧ d ≠ '\''

theorem keepsBlanks_cons : KeepsBlanks (c :: cs) ↔
    (IsBlank c → ∃ d, cs.head? = some d ∧ d ≠ '"' ∧ d ≠ '\'') ∧ KeepsBlanks cs := by
  constructor
  · intro h
    exact ⟨h [] c cs rfl, fun before d after hcs => h (c :: before) d after (by rw [hcs]; rfl)⟩
  · rintro ⟨hfirst, h⟩ before d after hcs
    cases before with
    | nil =>
      obtain ⟨rfl, rfl⟩ := List.cons.inj hcs
      exact hfirst
    | cons x before =>
      obtain ⟨rfl, rfl⟩ := List.cons.inj hcs
      exact h before d after rfl

theorem keepsBlanks_nil : KeepsBlanks [] := by
  intro before c after hcs
  cases before <;> cases hcs

theorem keepsBlanks_append (h : ∀ c ∈ before, ¬ IsBlank c) (hafter : KeepsBlanks after) :
    KeepsBlanks (before ++ after) := by
  induction before with
  | nil => exact hafter
  | cons c before ih =>
    obtain ⟨hc, hbefore⟩ := List.forall_mem_cons.1 h
    exact keepsBlanks_cons.2 ⟨fun hblank => absurd hblank hc, ih hbefore⟩

theorem keepsBlanks_of_append (h : KeepsBlanks (before ++ after)) : KeepsBlanks after := by
  rintro before' c after' rfl
  exact h (before ++ before') c after' (List.append_assoc _ _ _).symm

/-- The reader takes such words, and leaves out the blanks at the end. -/
theorem keepsBlanks_iff : KeepsBlanks cs ↔ areBare cs = true ∧ Ends isSpace cs.reverse := by
  induction cs with
  | nil => exact iff_of_true keepsBlanks_nil ⟨rfl, ends_nil isSpace⟩
  | cons c cs ih =>
    rw [keepsBlanks_cons, ih]
    cases cs with
    | nil =>
      have hends : Ends isSpace [c] ↔ ¬ IsBlank c := by
        rw [← isSpace_iff, Bool.not_eq_true]
        exact ⟨fun h => h c rfl, fun h => ends_cons h []⟩
      constructor
      · rintro ⟨hfirst, -⟩
        refine ⟨rfl, hends.2 fun hc => ?_⟩
        obtain ⟨d, hd, -⟩ := hfirst hc
        cases hd
      · rintro ⟨-, h⟩
        exact ⟨fun hc => absurd hc (hends.1 h), rfl, ends_nil isSpace⟩
    | cons d cs =>
      have hends : Ends isSpace (c :: d :: cs).reverse ↔ Ends isSpace (d :: cs).reverse := by
        have hhead : (c :: d :: cs).reverse.head? = (d :: cs).reverse.head? := by
          rw [List.head?_reverse, List.head?_reverse, List.getLast?_cons_cons]
        rw [Ends, Ends, hhead]
      have hfirst : (!(isSpace c && (d == '"' || d == '\''))) = true ↔
          (IsBlank c → ∃ d', (d :: cs).head? = some d' ∧ d' ≠ '"' ∧ d' ≠ '\'') := by
        cases hc : isSpace c <;> simp [← isSpace_iff, hc]
      rw [hends, areBare, Bool.and_eq_true, hfirst, and_assoc]

end Blanks

/-! ## What words are made of -/

section Shape
variable {text sign sp rest cs : List Char} {negative : Bool} {ds : List Nat} {v : Toml} {c : Char}

/-- Characters that most words are made of. -/
def InWord (c : Char) : Prop := ¬ IsMark c ∧ ¬ IsBlank c ∧ c ≠ '"' ∧ c ≠ '\''

instance (c : Char) : Decidable (InWord c) := inferInstanceAs (Decidable (_ ∧ _))

def IsWordPart (text : List Char) : Prop := ∀ c ∈ text, InWord c

instance (text : List Char) : Decidable (IsWordPart text) := List.decidableBAll InWord text

theorem isScalarChar_iff {c : Char} : isScalarChar c = true ↔ c = ' ' ∨ ¬ IsMark c := by
  simp [isScalarChar, isWordChar, isSpace, IsMark]
  grind

theorem inWord_of_isHexDigit (h : isHexDigit c = true) : InWord c := by
  have htable : ∀ n < 0x80, isHexDigit (Char.ofNat n) = true → InWord (Char.ofNat n) := by decide
  have hc := htable c.toNat (toNat_lt_of_isHexDigit h)
  rw [Char.ofNat_toNat] at hc
  exact hc h

theorem inWord_of_isDigit (h : c.isDigit = true) : InWord c :=
  inWord_of_isHexDigit (isHexDigit_of_isDigit h)

theorem forall₂_inWord (h : List.Forall₂ (IsDigit 10) text ds) : IsWordPart text :=
  fun c hc => inWord_of_isDigit ((digitKind_ten.forall₂_iff.1 h).1 c hc)

theorem Digits.inWord {base : Nat} (hbase : base ≤ 16) (h : Digits base text ds) :
    IsWordPart text := by
  have hdigit : ∀ {c d}, IsDigit base c d → InWord c := fun {c d} hc =>
    inWord_of_isHexDigit ((digitKind_sixteen.iff c d).1 ⟨by have := hc.1; omega, hc.2⟩).1
  induction h with
  | one hc => exact List.forall_mem_singleton.2 (hdigit hc)
  | cons hc h ih => exact List.forall_mem_cons.2 ⟨hdigit hc, ih⟩
  | underscore hc h ih =>
    exact List.forall_mem_cons.2 ⟨hdigit hc, List.forall_mem_cons.2 ⟨by decide, ih⟩⟩

theorem Sign.inWord (h : Sign sign negative) : IsWordPart sign := by
  cases h <;> decide

theorem PlacesText.inWord (h : PlacesText text ds) : IsWordPart text := by
  cases h with
  | none => exact List.forall_mem_nil _
  | places h => exact List.forall_mem_cons.2 ⟨by decide, h.inWord (by decide)⟩

theorem PowerText.inWord {e : Int} (h : PowerText text e) : IsWordPart text := by
  cases h with
  | none => exact List.forall_mem_nil _
  | power hmark hsign h =>
    refine List.forall_mem_cons.2
      ⟨?_, List.forall_mem_append.2 ⟨hsign.inWord, h.inWord (by decide)⟩⟩
    rcases hmark with rfl | rfl <;> decide

theorem Figures.inWord {size n : Nat} (h : Figures size text n) : IsWordPart text :=
  fun c hc => inWord_of_isDigit (h.digits c hc)

theorem DateText.inWord (h : DateText text) : IsWordPart text := by
  obtain ⟨hy, hm, hd, -⟩ := h
  exact List.forall_mem_append.2 ⟨hy.inWord, List.forall_mem_cons.2 ⟨by decide,
    List.forall_mem_append.2 ⟨hm.inWord, List.forall_mem_cons.2 ⟨by decide, hd.inWord⟩⟩⟩⟩

theorem SecondParts.inWord (h : SecondParts text) : IsWordPart text := by
  cases h with
  | none => exact List.forall_mem_nil _
  | parts hne h => exact List.forall_mem_cons.2 ⟨by decide, forall₂_inWord h⟩

theorem TimeText.inWord (h : TimeText text) : IsWordPart text := by
  cases h with
  | minute hh hm =>
    exact List.forall_mem_append.2 ⟨hh.inWord, List.forall_mem_cons.2 ⟨by decide, hm.inWord⟩⟩
  | second hh hm hs hlast hparts =>
    exact List.forall_mem_append.2 ⟨hh.inWord, List.forall_mem_cons.2 ⟨by decide,
      List.forall_mem_append.2 ⟨hm.inWord, List.forall_mem_cons.2 ⟨by decide,
        List.forall_mem_append.2 ⟨hs.inWord, hparts.inWord⟩⟩⟩⟩⟩

theorem OffsetText.inWord (h : text = [] ∨ OffsetText text) : IsWordPart text := by
  obtain rfl | h := h
  · exact List.forall_mem_nil _
  · cases h with
    | none hz => rcases hz with rfl | rfl <;> decide
    | some hsign hh hm =>
      refine List.forall_mem_cons.2 ⟨?_, List.forall_mem_append.2
        ⟨hh.inWord, List.forall_mem_cons.2 ⟨by decide, hm.inWord⟩⟩⟩
      rcases hsign with rfl | rfl <;> decide

/-- What the reader takes for one value. -/
structure IsWord (text : List Char) : Prop where
  front : ∃ c cs, text = c :: cs ∧ InWord c
  chars : ∀ c ∈ text, isScalarChar c = true
  blanks : KeepsBlanks text

theorem isScalarChar_of_inWord (h : InWord c) : isScalarChar c = true :=
  isScalarChar_iff.2 (.inr h.1)

theorem isScalarChar_of_isBlank (h : IsBlank c) : isScalarChar c = true := by
  rw [isScalarChar, isSpace_iff.2 h, Bool.or_true]

theorem isWord_of_chars (hne : text ≠ []) (h : IsWordPart text) : IsWord text where
  front := by
    obtain ⟨c, cs, rfl⟩ := List.exists_cons_of_ne_nil hne
    exact ⟨c, cs, rfl, h c List.mem_cons_self⟩
  chars := fun c hc => isScalarChar_of_inWord (h c hc)
  blanks := by
    have hblanks := keepsBlanks_append (fun c hc => (h c hc).2.1) keepsBlanks_nil
    rwa [List.append_nil] at hblanks

/-- Two words with a mark or a space between them. -/
theorem isWord_join {mark : Char} (hmark : InWord mark ∨ mark = ' ') (hne : text ≠ [])
    (htext : IsWordPart text) (hne' : rest ≠ []) (hrest : IsWordPart rest) :
    IsWord (text ++ mark :: rest) := by
  have hword := isWord_of_chars hne htext
  have hword' := isWord_of_chars hne' hrest
  obtain ⟨c, cs, hc, hfront⟩ := hword.front
  obtain ⟨c', cs', hc', hfront'⟩ := hword'.front
  refine ⟨⟨c, cs ++ mark :: rest, by rw [hc]; rfl, hfront⟩, ?_, ?_⟩
  · refine List.forall_mem_append.2 ⟨hword.chars, List.forall_mem_cons.2 ⟨?_, hword'.chars⟩⟩
    exact isScalarChar_iff.2 (hmark.elim (fun h => .inr h.1) .inl)
  · refine keepsBlanks_append (fun c hc => (htext c hc).2.1) (keepsBlanks_cons.2 ⟨fun _ => ?_,
      hword'.blanks⟩)
    exact ⟨c', by rw [hc']; rfl, hfront'.2.2⟩

theorem DateTimeText.isWord (h : DateTimeText text) : IsWord text := by
  cases h with
  | date hdate =>
    obtain ⟨c, cs, rest, rfl, -⟩ := hdate.front
    exact isWord_of_chars (List.cons_ne_nil _ _) hdate.inWord
  | time htime =>
    obtain ⟨a, b, rest, rfl, -⟩ := htime.front
    exact isWord_of_chars (List.cons_ne_nil _ _) htime.inWord
  | both hdate hmark htime hoffset =>
    have hparts := hdate.inWord
    obtain ⟨c, cs, rest, rfl, -⟩ := hdate.front
    have hparts' := List.forall_mem_append.2 ⟨htime.inWord, OffsetText.inWord hoffset⟩
    obtain ⟨a, b, rest, rfl, -⟩ := htime.front
    refine isWord_join ?_ (List.cons_ne_nil _ _) hparts (List.cons_ne_nil _ _) hparts'
    rcases hmark with rfl | rfl | rfl
    · exact .inl (by decide)
    · exact .inl (by decide)
    · exact .inr rfl

theorem LooseText.isWord (h : LooseText text) : IsWord text := by
  cases h with
  | based hmark =>
    simp only [List.mem_cons, List.not_mem_nil, or_false] at hmark
    rcases hmark with rfl | rfl | rfl <;>
      exact isWord_of_chars (List.cons_ne_nil _ _) (by decide)
  | @decimal sign text rest negative ds hsign hne h hzero hchars hunderscore htab hloose =>
    have hfront : IsWordPart (sign ++ (text ++ ['_'])) := List.forall_mem_append.2
      ⟨hsign.inWord, List.forall_mem_append.2
        ⟨forall₂_inWord h, List.forall_mem_singleton.2 (by decide)⟩⟩
    have happend : sign ++ (text ++ '_' :: rest) = (sign ++ (text ++ ['_'])) ++ rest := by simp
    have hword := isWord_of_chars (by simp) hfront
    rw [happend]
    refine ⟨?_, List.forall_mem_append.2 ⟨hword.chars, fun c hc => ?_⟩,
      keepsBlanks_append (fun c hc => (hfront c hc).2.1) ?_⟩
    · obtain ⟨c, cs, hcs, hc⟩ := hword.front
      exact ⟨c, cs ++ rest, by rw [hcs]; rfl, hc⟩
    · exact isScalarChar_iff.2 (.inr (hchars c hc).1)
    · rintro before c after hrest (rfl | rfl)
      · exact absurd (by decide) (hchars ' ' (by rw [hrest]; simp)).1
      · exact htab before after hrest

theorem ScalarText.isWord (h : ScalarText text v) : IsWord text := by
  cases h with
  | true => exact isWord_of_chars (by decide) (by decide)
  | false => exact isWord_of_chars (by decide) (by decide)
  | integer h =>
    cases h with
    | decimal hsign h =>
      refine isWord_of_chars ?_ (List.forall_mem_append.2 ⟨hsign.inWord, h.inWord (by decide)⟩)
      obtain ⟨c, cs, rfl, -⟩ := h.front
      exact List.append_ne_nil_of_right_ne_nil _ (List.cons_ne_nil _ _)
    | @based mark base text ds hmark h =>
      have hbase : InWord mark ∧ base ≤ 16 := by
        simp only [List.mem_cons, Prod.mk.injEq, List.not_mem_nil, or_false] at hmark
        rcases hmark with ⟨rfl, rfl⟩ | ⟨rfl, rfl⟩ | ⟨rfl, rfl⟩ <;> decide
      exact isWord_of_chars (List.cons_ne_nil _ _) (List.forall_mem_cons.2 ⟨by decide,
        List.forall_mem_cons.2 ⟨hbase.1, h.inWord hbase.2⟩⟩)
  | loose h => exact h.isWord
  | float h =>
    obtain ⟨hsign, hwhole, -, hplaces, hpower, -⟩ := h
    refine isWord_of_chars ?_ (List.forall_mem_append.2 ⟨hsign.inWord, List.forall_mem_append.2
      ⟨hwhole.inWord (by decide), List.forall_mem_append.2 ⟨hplaces.inWord, hpower.inWord⟩⟩⟩)
    obtain ⟨c, cs, rfl, -⟩ := hwhole.front
    exact List.append_ne_nil_of_right_ne_nil _ (List.cons_ne_nil _ _)
  | special hsign hword =>
    cases hsign <;> rcases hword with rfl | rfl <;>
      exact isWord_of_chars (by decide) (by decide)
  | datetime h => exact h.isWord

theorem withoutLastSpace_append (hsp : Spaces sp) (htext : Ends isSpace text.reverse) :
    withoutLastSpace (text ++ sp) = text := by
  have hspaces : ∀ c ∈ sp.reverse, isSpace c = true := fun c hc =>
    isSpace_iff.2 (hsp c (List.mem_reverse.1 hc))
  rw [withoutLastSpace, List.reverse_append, List.dropWhile_append_of_pos hspaces,
    htext.dropWhile_eq_self, List.reverse_reverse]

theorem exists_withoutLastSpace (cs : List Char) :
    ∃ sp, cs = withoutLastSpace cs ++ sp ∧ Spaces sp ∧
      Ends isSpace (withoutLastSpace cs).reverse := by
  obtain ⟨hrun, hends, hcs⟩ := run_iff.1 ⟨rfl, rfl⟩
  refine ⟨(cs.reverse.takeWhile isSpace).reverse, ?_, fun c hc => ?_, ?_⟩
  · rw [withoutLastSpace, ← List.reverse_append, ← hcs, List.reverse_reverse]
  · exact isSpace_iff.1 (hrun c (List.mem_reverse.1 hc))
  · rw [withoutLastSpace, List.reverse_reverse]
    exact hends

end Shape

end TvmDebug.Toml
