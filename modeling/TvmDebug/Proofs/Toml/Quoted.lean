import TvmDebug.Proofs.Toml.Digits
import TvmDebug.Toml.Reader
/-! # Strings on one line are read as they are written

What a reader of strings takes is a text of its form with the closing quotes (`Takes`). Between
double quotes each character is read from one of its texts (`CharText.readBasic`), and so is a
string (`BasicText.read`, `takes_readBasic`); between single quotes it is its own text
(`LiteralText.read`, `takes_readLiteral`). -/
set_option autoImplicit false

namespace TvmDebug.Toml

open Text

/-! ## Characters -/

theorem isPlain_iff {c : Char} : isPlain c = true ↔ IsPrintable c := by
  simp [isPlain, IsPrintable]

theorem isSpace_iff {c : Char} : isSpace c = true ↔ IsBlank c := by
  simp [isSpace, IsBlank]

theorem LineEnd.front {e : List Char} (h : LineEnd e) :
    ∃ c cs, e = c :: cs ∧ (c = '\n' ∨ c = '\r') := by
  cases h
  · exact ⟨_, _, rfl, .inl rfl⟩
  · exact ⟨_, _, rfl, .inr rfl⟩

theorem afterLineEnd?_eq_some_iff {cs rest : List Char} :
    afterLineEnd? cs = some rest ↔ ∃ e, LineEnd e ∧ cs = e ++ rest := by
  constructor
  · intro h
    unfold afterLineEnd? at h
    split at h
    · obtain rfl := Option.some.inj h
      exact ⟨_, .newline, rfl⟩
    · obtain rfl := Option.some.inj h
      exact ⟨_, .returnNewline, rfl⟩
    · cases h
  · rintro ⟨e, he, rfl⟩
    cases he <;> rfl

theorem afterLineEnd?_eq_none_iff {cs : List Char} : afterLineEnd? cs = none ↔ NoLineEnd cs := by
  rw [Option.eq_none_iff_forall_ne_some]
  constructor
  · intro h e he rest hcs
    exact h rest (afterLineEnd?_eq_some_iff.2 ⟨e, he, hcs⟩)
  · intro h rest hrest
    obtain ⟨e, he, hcs⟩ := afterLineEnd?_eq_some_iff.1 hrest
    exact h e he rest hcs

/-- What closes a text makes no line end of what it goes on with. -/
theorem NoLineEnd.closing {text : List Char} (h : NoLineEnd text) {q : Char}
    (hq : q ≠ '\n' ∧ q ≠ '\r') (rest : List Char) : NoLineEnd (text ++ q :: rest) := by
  intro e he rest' heq
  cases he with
  | newline =>
    cases text with
    | nil => exact hq.1 (List.cons.inj heq).1
    | cons c text =>
      obtain ⟨rfl, -⟩ := List.cons.inj heq
      exact h _ .newline text rfl
  | returnNewline =>
    match text with
    | [] => exact hq.2 (List.cons.inj heq).1
    | [c] => exact hq.1 (List.cons.inj (List.cons.inj heq).2).1
    | c :: d :: text =>
      obtain ⟨rfl, htext⟩ := List.cons.inj heq
      obtain ⟨rfl, -⟩ := List.cons.inj htext
      exact h _ .returnNewline text rfl

theorem NoLineEnd.of_append {text rest : List Char} (h : NoLineEnd (text ++ rest)) :
    NoLineEnd text := by
  intro e he rest' heq
  exact h e he (rest' ++ rest) (by rw [heq, List.append_assoc])

theorem noLineEnd_nil : NoLineEnd [] := by
  intro e he rest heq
  obtain ⟨d, ds, rfl, -⟩ := he.front
  cases heq

theorem noLineEnd_of_front {c : Char} (hline : c ≠ '\n') (hreturn : c ≠ '\r') (cs : List Char) :
    NoLineEnd (c :: cs) := by
  intro e he rest heq
  obtain ⟨d, ds, rfl, hd⟩ := he.front
  obtain rfl := (List.cons.inj heq).1
  exact hd.elim hline hreturn

theorem IsPrintable.ne_lineEnd {c : Char} (h : IsPrintable c) : c ≠ '\n' ∧ c ≠ '\r' := by
  constructor <;> rintro rfl <;> exact absurd h (by decide)

theorem ne_cons_of_ends {q : Char} {rest : List Char} (h : Ends (· == q) rest) (cs : List Char) :
    rest ≠ q :: cs := by
  rintro rfl
  exact absurd (h q rfl) (by simp)

theorem ends_of_ne {q c : Char} (h : c ≠ q) (cs : List Char) : Ends (· == q) (c :: cs) :=
  ends_cons (p := (· == q)) (beq_eq_false_iff_ne.2 h) cs

/-! ## Readers that put a character in front -/

theorem prepend_eq_some_iff {c : Char} {r : Option (List Char × List Char)} {s rest : List Char} :
    prepend c r = some (s, rest) ↔ ∃ s', s = c :: s' ∧ r = some (s', rest) := by
  cases r with
  | none => simp [prepend]
  | some r => cases r; simp [prepend, and_comm, eq_comm]

theorem foldr_prepend (front cs rest : List Char) :
    front.foldr prepend (some (cs, rest)) = some (front ++ cs, rest) := by
  induction front with
  | nil => rfl
  | cons c front ih =>
    rw [List.foldr_cons, ih]
    rfl

/-- What was read is a text of the form with its closing quotes. -/
def Takes (Text : List Char → List Char → Prop) (closing : List Char)
    (r : Option (List Char × List Char)) (cs : List Char) : Prop :=
  ∀ s rest, r = some (s, rest) → ∃ text, Text s text ∧ cs = text ++ (closing ++ rest)

section Takes
variable {Text Text' : List Char → List Char → Prop} {c : Char} {closing cs : List Char}
  {r : Option (List Char × List Char)}

theorem takes_none : Takes Text closing none cs := nofun

theorem takes_closed {s rest : List Char} (text : List Char) (h : Text s text) :
    Takes Text closing (some (s, rest)) (text ++ (closing ++ rest)) := by
  rintro _ _ ⟨⟩
  exact ⟨text, h, rfl⟩

theorem Takes.prepend (h : Takes Text closing r cs) (front : List Char)
    (hcons : ∀ s text, Text s text → Text' (c :: s) (front ++ text)) :
    Takes Text' closing (prepend c r) (front ++ cs) := by
  intro s rest hs
  obtain ⟨s', rfl, hr⟩ := prepend_eq_some_iff.1 hs
  obtain ⟨text, htext, rfl⟩ := h s' rest hr
  exact ⟨_, hcons _ _ htext, (List.append_assoc _ _ _).symm⟩

theorem Takes.prependTwo {d : Char} (h : Takes Text closing r cs)
    (hcons : ∀ s text, Text s text → Text (c :: d :: s) (c :: d :: text)) :
    Takes Text closing (Toml.prepend c (Toml.prepend d r)) (c :: d :: cs) := by
  intro s rest hs
  obtain ⟨s₁, rfl, hs₁⟩ := prepend_eq_some_iff.1 hs
  obtain ⟨s₂, rfl, hs₂⟩ := prepend_eq_some_iff.1 hs₁
  obtain ⟨text, htext, rfl⟩ := h s₂ rest hs₂
  exact ⟨_, hcons _ _ htext, rfl⟩

theorem takes_bind {α : Type} {o : Option α} {f : α → Option (List Char × List Char)}
    (h : ∀ x, o = some x → Takes Text closing (f x) cs) : Takes Text closing (o.bind f) cs := by
  intro s rest hs
  obtain ⟨x, hx, hs⟩ := Option.bind_eq_some_iff.1 hs
  exact h x hx s rest hs

end Takes

/-! ## Characters between double quotes -/

theorem escapedChar?_eq_some_iff {e c : Char} : escapedChar? e = some c ↔ Escape e c := by
  constructor
  · intro h
    unfold escapedChar? at h
    split at h <;> cases h <;> constructor
  · intro h
    cases h <;> rfl

theorem charOfCode?_eq_some_iff {n : Nat} {c : Char} : charOfCode? n = some c ↔ n = c.toNat := by
  constructor
  · intro h
    obtain ⟨hn, hc⟩ := Option.dite_none_right_eq_some.1 h
    obtain rfl := Option.some.inj hc
    rfl
  · rintro rfl
    exact charOfCode?_toNat c

theorem ofHex?_eq_some_iff {text : List Char} {c : Char} :
    ofHex? text = some c ↔ ∃ ds, List.Forall₂ (IsDigit 16) text ds ∧ number 16 ds = c.toNat := by
  simp only [ofHex?, Option.bind_eq_some_iff, charOfCode?_eq_some_iff, hexNumber?_eq_some_iff]
  constructor
  · rintro ⟨_, ⟨ds, hds, rfl⟩, hc⟩
    exact ⟨ds, hds, hc⟩
  · rintro ⟨ds, hds, hc⟩
    exact ⟨_, ⟨ds, hds, rfl⟩, hc⟩

/-- A character that is written by its code. -/
theorem charText_code {mark c : Char} (text : List Char)
    (hmark : (mark, text.length) ∈ [('x', 2), ('u', 4), ('U', 8)]) (h : ofHex? text = some c) :
    CharText c ('\\' :: mark :: text) := by
  obtain ⟨ds, hds, hc⟩ := ofHex?_eq_some_iff.1 h
  exact .code hmark hds hc

/-- The three lengths of a code. -/
theorem code_cases {mark : Char} {text : List Char}
    (h : (mark, text.length) ∈ [('x', 2), ('u', 4), ('U', 8)]) :
    (mark = 'x' ∧ ∃ a b, text = [a, b]) ∨ (mark = 'u' ∧ ∃ a b c d, text = [a, b, c, d]) ∨
      (mark = 'U' ∧ ∃ a b c d e f g h, text = [a, b, c, d, e, f, g, h]) := by
  simp only [List.mem_cons, Prod.mk.injEq, List.not_mem_nil, or_false] at h
  rcases h with ⟨rfl, h⟩ | ⟨rfl, h⟩ | ⟨rfl, h⟩
  · exact .inl ⟨rfl, List.length_eq_two.1 h⟩
  · match text, h with
    | [a, b, c, d], _ => exact .inr (.inl ⟨rfl, a, b, c, d, rfl⟩)
  · match text, h with
    | [a, b, c, d, e, f, g, h], _ => exact .inr (.inr ⟨rfl, a, b, c, d, e, f, g, h, rfl⟩)

theorem CharText.front {c : Char} {s : List Char} (h : CharText c s) :
    ∃ d s', s = d :: s' ∧ d ≠ '"' ∧ IsPrintable d := by
  cases h with
  | itself hc hquote => exact ⟨c, [], rfl, hquote, hc⟩
  | letter => exact ⟨_, _, rfl, by decide, by decide⟩
  | code => exact ⟨_, _, rfl, by decide, by decide⟩

theorem ne_of_escapedChar? {e c : Char} (h : escapedChar? e = some c) :
    e ≠ 'x' ∧ e ≠ 'u' ∧ e ≠ 'U' := by
  refine ⟨?_, ?_, ?_⟩ <;> rintro rfl <;> cases h

/-! ## One line, between double quotes -/

theorem CharText.readBasic {c : Char} {s : List Char} (h : CharText c s) (cs : List Char) :
    readBasic (s ++ cs) = prepend c (readBasic cs) := by
  cases h with
  | itself hc hquote hslash =>
    have hread := readBasic.eq_7 c cs (fun h => absurd h hquote) (fun _ _ _ h => absurd h hslash)
      (fun _ _ _ _ _ h => absurd h hslash) (fun _ _ _ _ _ _ _ _ _ h => absurd h hslash)
      fun _ _ h => absurd h hslash
    have hplain : (isPlain c && c != '\\') = true := by
      rw [isPlain_iff.2 hc, Bool.true_and, bne_iff_ne]
      exact hslash
    rw [if_pos hplain] at hread
    exact hread
  | @letter e he =>
    have he' := escapedChar?_eq_some_iff.2 he
    obtain ⟨hx, hu, hU⟩ := ne_of_escapedChar? he'
    have hread := readBasic.eq_6 e cs (fun _ _ _ h => absurd h hx) (fun _ _ _ _ _ h => absurd h hu)
      fun _ _ _ _ _ _ _ _ _ h => absurd h hU
    rw [he'] at hread
    exact hread
  | code hmark hds hc =>
    have hhex := ofHex?_eq_some_iff.2 ⟨_, hds, hc⟩
    obtain ⟨rfl, a, b, rfl⟩ | ⟨rfl, a, b, c', d, rfl⟩ | ⟨rfl, a, b, c', d, e, f, g, h, rfl⟩ :=
      code_cases hmark
    · have hread := readBasic.eq_3 a b cs
      rw [hhex] at hread
      exact hread
    · have hread := readBasic.eq_4 a b c' d cs
      rw [hhex] at hread
      exact hread
    · have hread := readBasic.eq_5 a b c' d e f g h cs
      rw [hhex] at hread
      exact hread

theorem BasicText.read {cs text : List Char} (h : BasicText cs text) (rest : List Char) :
    readBasic (text ++ '"' :: rest) = some (cs, rest) := by
  induction h with
  | nil => rfl
  | cons hc h ih =>
    rw [List.append_assoc, hc.readBasic, ih]
    rfl

theorem takes_char {c : Char} {s cs : List Char} {r : Option (List Char × List Char)}
    (hc : CharText c s) (h : Takes BasicText ['"'] r cs) :
    Takes BasicText ['"'] (prepend c r) (s ++ cs) :=
  h.prepend s fun _ _ => .cons hc

theorem takes_readBasic (cs : List Char) : Takes BasicText ['"'] (readBasic cs) cs := by
  fun_induction readBasic cs with
  | case1 => exact takes_none
  | case2 cs => exact takes_closed [] BasicText.nil
  | case3 a b cs ih =>
    exact takes_bind fun x hx => takes_char (charText_code [a, b] (.head _) hx) ih
  | case4 a b c d cs ih =>
    exact takes_bind fun x hx => takes_char (charText_code [a, b, c, d] (.tail _ (.head _)) hx) ih
  | case5 a b c d e f g h cs ih =>
    exact takes_bind fun x hx =>
      takes_char (charText_code [a, b, c, d, e, f, g, h] (.tail _ (.tail _ (.head _))) hx) ih
  | case6 c cs _ _ _ ih =>
    exact takes_bind fun x hx => takes_char (.letter (escapedChar?_eq_some_iff.1 hx)) ih
  | case7 c cs hquote _ _ _ _ hc ih =>
    rw [Bool.and_eq_true, bne_iff_ne, isPlain_iff] at hc
    exact takes_char (.itself hc.1 hquote hc.2) ih
  | case8 => exact takes_none

/-- A string between double quotes does not begin as one over several lines does. -/
theorem BasicText.ne_quotes {cs text rest : List Char} (h : BasicText cs text)
    (hrest : Ends (· == '"') rest) (rest' : List Char) :
    text ++ '"' :: rest ≠ '"' :: '"' :: rest' := by
  intro heq
  cases h with
  | nil => exact ne_cons_of_ends hrest _ (List.cons.inj heq).2
  | cons hc h =>
    obtain ⟨d, s', rfl, hd, -⟩ := hc.front
    exact hd (List.cons.inj heq).1

/-! ## One line, between single quotes -/

theorem LiteralText.read {cs : List Char} (h : LiteralText cs) (rest : List Char) :
    readLiteral (cs ++ '\'' :: rest) = some (cs, rest) := by
  induction cs with
  | nil => rfl
  | cons c cs ih =>
    obtain ⟨⟨hplain, hquote⟩, hcs⟩ := List.forall_mem_cons.1 h
    rw [List.cons_append, readLiteral.eq_3 c _ hquote, if_pos (isPlain_iff.2 hplain), ih hcs]
    rfl

theorem takes_readLiteral (cs : List Char) :
    Takes (fun s text => LiteralText s ∧ text = s) ['\''] (readLiteral cs) cs := by
  fun_induction readLiteral cs with
  | case1 => exact takes_none
  | case2 cs => exact takes_closed [] ⟨List.forall_mem_nil _, rfl⟩
  | case3 c cs hquote hc ih =>
    refine ih.prepend [c] fun s text hs => ?_
    exact ⟨List.forall_mem_cons.2 ⟨⟨isPlain_iff.1 hc, hquote⟩, hs.1⟩, by rw [hs.2]; rfl⟩
  | case4 => exact takes_none

theorem LiteralText.ne_quotes {cs rest : List Char} (h : LiteralText cs)
    (hrest : Ends (· == '\'') rest) (rest' : List Char) :
    cs ++ '\'' :: rest ≠ '\'' :: '\'' :: rest' := by
  intro heq
  cases cs with
  | nil => exact ne_cons_of_ends hrest _ (List.cons.inj heq).2
  | cons c cs => exact (h c List.mem_cons_self).2 (List.cons.inj heq).1

end TvmDebug.Toml
