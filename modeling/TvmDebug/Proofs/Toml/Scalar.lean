import Mathlib.Data.List.TakeWhile
import TvmDebug.Proofs.Toml.Words
/-! # Words are read as they are written

A word that begins with a digit, after a sign or none, is told by what follows its first digits
(`ofDigits?_integer`, `ofDigits?_date`, `ofDigits?_other`). In all a word is read as a value exactly
when it writes the value (`ScalarText.read`, `exists_of_readScalar`). -/
set_option autoImplicit false

namespace TvmDebug.Toml

open Text

/-! ## What follows the first digits -/

section Front
variable {sign value rest : List Char} {negative : Bool} {c : Char}

theorem not_mem_baseMarks (hc : c.isDigit = true ∨ c ∈ ['_', '-', ':', '.', 'e', 'E']) :
    c ∉ ['x', 'o', 'b'] := by
  simp only [List.mem_cons, List.not_mem_nil, or_false]
  rintro (rfl | rfl | rfl) <;> exact absurd hc (by decide)

/-- Digits are not followed by the mark of a base if another character ends them. -/
theorem not_mem_baseMarks_of_digits {cs : List Char} (hcs : ∀ c ∈ cs, c.isDigit = true)
    (hc : c ∉ ['x', 'o', 'b']) :
    ∀ d ds, cs ++ c :: rest = d :: ds → d ∉ ['x', 'o', 'b'] := by
  intro d ds heq
  cases cs with
  | nil => rwa [← (List.cons.inj heq).1]
  | cons c' cs =>
    rw [← (List.cons.inj heq).1]
    exact not_mem_baseMarks (.inl (hcs c' List.mem_cons_self))

/-- A word that begins with a digit is neither a truth value nor written in another base. -/
theorem ofScalar?_of_digit (hsign : Sign sign negative) (hc : c.isDigit = true)
    (hbase : ∀ d ds, rest = d :: ds → d ∉ ['x', 'o', 'b']) :
    ofScalar? (sign ++ c :: rest) = ofDigits? (sign ++ c :: rest) := by
  obtain ⟨hdrop, -⟩ := hsign.drop (noSign_of_isDigit hc rest)
  have hword : ∀ {d : Char} {ds : List Char}, d.isDigit = false →
      dropSign (sign ++ c :: rest) ≠ d :: ds := by
    intro d ds hd heq
    rw [hdrop] at heq
    obtain rfl := (List.cons.inj heq).1
    rw [hc] at hd
    cases hd
  have htrue : sign ++ c :: rest ≠ "true".toList := fun heq =>
    hword (by decide : 't'.isDigit = false) (by rw [heq]; rfl)
  have hfalse : sign ++ c :: rest ≠ "false".toList := fun heq =>
    hword (by decide : 'f'.isDigit = false) (by rw [heq]; rfl)
  have hspecial : ¬ (dropSign (sign ++ c :: rest) = "inf".toList ∨
      dropSign (sign ++ c :: rest) = "nan".toList) :=
    not_or.2 ⟨hword (by decide : 'i'.isDigit = false), hword (by decide : 'n'.isDigit = false)⟩
  have hmark : ∀ {d : Char} {ds : List Char}, d ∈ ['x', 'o', 'b'] →
      sign ++ c :: rest ≠ '0' :: d :: ds := by
    intro d ds hd heq
    cases hsign with
    | none => exact hbase d ds (List.cons.inj heq).2 hd
    | plus | minus => exact absurd (List.cons.inj heq).1 (by decide)
  unfold ofScalar?
  rw [if_neg htrue, if_neg hfalse, if_neg hspecial]
  split
  · next heq => exact absurd heq (hmark (by decide))
  · next heq => exact absurd heq (hmark (by decide))
  · next heq => exact absurd heq (hmark (by decide))
  · rfl

variable (hsign : Sign sign negative) (hvalue : NoSign value)
include hsign hvalue

theorem ofDigits?_integer (hne : value ≠ []) (htail : value.dropWhile Char.isDigit = []) :
    ofDigits? (sign ++ value) = (decimalInteger? (sign ++ value)).map .integer := by
  obtain ⟨hdrop, -⟩ := hsign.drop hvalue
  simp only [ofDigits?, hdrop, htail, List.isEmpty_eq_false_iff.2 hne]
  rfl

theorem ofDigits?_date {mark : Char} (hmark : mark = '-' ∨ mark = ':')
    (htail : value.dropWhile Char.isDigit = mark :: rest) :
    ofDigits? (sign ++ value) = if isDateTime (sign ++ value) then some .datetime else none := by
  obtain ⟨hdrop, -⟩ := hsign.drop hvalue
  rcases hmark with rfl | rfl <;> simp only [ofDigits?, hdrop, htail]

theorem ofDigits?_other (hc : c ≠ '-' ∧ c ≠ ':')
    (htail : value.dropWhile Char.isDigit = c :: rest) :
    ofDigits? (sign ++ value) =
      if (c :: rest).any isFloatMark then (float? (sign ++ value)).map .float
      else if c = '_' ∧ ' ' ∉ rest then (decimalInteger? (sign ++ value)).map .integer
      else none := by
  obtain ⟨hdrop, -⟩ := hsign.drop hvalue
  have hloose : (decide (c = '_') && !rest.contains ' ') = true ↔ c = '_' ∧ ' ' ∉ rest := by simp
  simp only [ofDigits?, hdrop, htail]
  split
  · next heq => cases heq
  · next heq => exact absurd (List.cons.inj heq).1 hc.1
  · next heq => exact absurd (List.cons.inj heq).1 hc.2
  · next heq =>
    obtain ⟨rfl, rfl⟩ := List.cons.inj heq
    simp only [hloose]

end Front

/-! ## Underscores that stand between digits -/

section Separated
variable {kind : Char → Bool} {cs : List Char}

/-- Each underscore stands after a digit and before one; `after` says whether the text itself stands
after a digit. -/
def StandsBetween (kind : Char → Bool) (after : Bool) (cs : List Char) : Prop :=
  ∀ before rest, cs = before ++ '_' :: rest →
    (before.getLast?.map kind).getD after = true ∧ ∃ c, rest.head? = some c ∧ kind c = true

theorem standsBetween_cons {c : Char} {after : Bool} : StandsBetween kind after (c :: cs) ↔
    (c = '_' → after = true ∧ ∃ d, cs.head? = some d ∧ kind d = true) ∧
      StandsBetween kind (kind c) cs := by
  have hlast : ∀ before : List Char, ((c :: before).getLast?.map kind).getD after =
      (before.getLast?.map kind).getD (kind c) := by
    intro before
    rw [List.getLast?_cons]
    cases before.getLast? <;> rfl
  constructor
  · intro h
    refine ⟨?_, fun before rest hcs => ?_⟩
    · rintro rfl
      exact h [] cs rfl
    · rw [← hlast]
      exact h (c :: before) rest (by rw [hcs]; rfl)
  · rintro ⟨hfirst, h⟩ before rest hcs
    cases before with
    | nil =>
      obtain ⟨rfl, rfl⟩ := List.cons.inj hcs
      exact hfirst rfl
    | cons d before =>
      obtain ⟨rfl, rfl⟩ := List.cons.inj hcs
      rw [hlast]
      exact h before rest rfl

theorem areSeparated_iff (hkind : kind '_' = false) {after : Bool} :
    areSeparated kind after cs = true ↔ StandsBetween kind after cs := by
  have hhead : ∀ cs : List Char,
      cs.head?.any kind = true ↔ ∃ c, cs.head? = some c ∧ kind c = true := by
    intro cs
    cases cs <;> simp
  induction cs generalizing after with
  | nil => exact iff_of_true rfl fun before rest hcs => by cases before <;> cases hcs
  | cons c cs ih =>
    rw [standsBetween_cons, areSeparated]
    split
    · next hc =>
      subst hc
      rw [Bool.and_eq_true, Bool.and_eq_true, hhead, ← hkind]
      exact and_congr ⟨fun h _ => h, fun h => h rfl⟩ ih
    · next hc => exact ih.trans (and_iff_right fun heq => absurd heq hc).symm

end Separated

/-! ## Words with what follows the first digits -/

section Word
variable {sign value text rest cs : List Char} {negative : Bool} {ds : List Nat} {v : Toml}

theorem isFloatMark_iff {c : Char} : isFloatMark c = true ↔ c ∈ ['.', 'e', 'E'] := by
  simp [isFloatMark, isExponentMark]

/-- A mark of a float is neither a digit nor an underscore. -/
theorem isFloatMark_spec {c : Char} (h : isFloatMark c = true) :
    c ≠ '_' ∧ c.isDigit = false := by
  rw [isFloatMark_iff] at h
  simp only [List.mem_cons, List.not_mem_nil, or_false] at h
  rcases h with rfl | rfl | rfl <;> decide

/-- Digits with underscores go on, after the first digits, with an underscore or not at all. -/
theorem Digits.tail (h : Digits 10 text ds) (hrest : NoDigit rest) :
    ((text ++ rest).dropWhile Char.isDigit = rest ∧ ∀ c ∈ text, c.isDigit = true) ∨
      ∃ tail, (text ++ rest).dropWhile Char.isDigit = '_' :: (tail ++ rest) ∧
        ∀ c ∈ tail, c = '_' ∨ c.isDigit = true := by
  obtain ⟨-, hchars, -, -⟩ := (digits_iff digitKind_ten rfl).1 h
  by_cases hall : ∀ c ∈ text, c.isDigit = true
  · exact .inl ⟨(run_iff.2 ⟨hall, fun c hc => (hrest c hc).1, rfl⟩).2, hall⟩
  · have hne : text.dropWhile Char.isDigit ≠ [] := by
      rw [ne_eq, List.dropWhile_eq_nil_iff]
      exact hall
    obtain ⟨c, tail, htail⟩ := List.exists_cons_of_ne_nil hne
    have hmem : ∀ d ∈ c :: tail, d = '_' ∨ d.isDigit = true := fun d hd =>
      hchars d ((List.dropWhile_suffix _).subset (htail ▸ hd))
    have hc : c.isDigit = false := ends_dropWhile Char.isDigit text c (by rw [htail]; rfl)
    obtain rfl : c = '_' := (hmem c List.mem_cons_self).resolve_right (by rw [hc]; decide)
    refine .inr ⟨tail, ?_, (List.forall_mem_cons.1 hmem).2⟩
    rw [List.dropWhile_append, htail]
    rfl

/-- Digits with underscores do not go on with the mark of a base after the first of them. -/
theorem Digits.noBase (h : Digits 10 text ds)
    (hrest : ∀ d ds, rest = d :: ds → d ∉ ['x', 'o', 'b']) :
    ∃ c cs, text ++ rest = c :: cs ∧ c.isDigit = true ∧
      ∀ d ds, cs = d :: ds → d ∉ ['x', 'o', 'b'] := by
  obtain ⟨-, hchars, -, -⟩ := (digits_iff digitKind_ten rfl).1 h
  obtain ⟨c, text, rfl, hc⟩ := h.front
  refine ⟨c, text ++ rest, rfl, hc, fun d ds hcs => ?_⟩
  cases text with
  | nil => exact hrest d ds hcs
  | cons d' text =>
    obtain ⟨rfl, -⟩ := List.cons.inj hcs
    obtain rfl | hdigit := hchars d' (.tail _ (.head _))
    · exact not_mem_baseMarks (.inr (.head _))
    · exact not_mem_baseMarks (.inl hdigit)

theorem ofScalar?_decimal (hsign : Sign sign negative) (h : Digits 10 text ds) (hzero : NoZero ds) :
    ofScalar? (sign ++ text) = some (.integer (known? (signed negative (number 10 ds)))) := by
  have hno := h.noSign []
  have hend : ∀ d ds, ([] : List Char) = d :: ds → d ∉ ['x', 'o', 'b'] := nofun
  obtain ⟨c, cs, hcs, hc, hbase⟩ := h.noBase hend
  have htail := h.tail noDigit_nil
  have hne : text ≠ [] := ((digits_iff digitKind_ten rfl).1 h).1
  simp only [List.append_nil] at hno hcs htail
  have hread := decimalInteger?_of_digits hsign h hzero
  rw [hcs, ofScalar?_of_digit hsign hc hbase, ← hcs]
  obtain ⟨htail, -⟩ | ⟨tail, htail, hchars⟩ := htail
  · rw [ofDigits?_integer hsign hno hne htail, hread]
    rfl
  · have hmark : ('_' :: tail).any isFloatMark = false := by
      rw [List.any_eq_false]
      intro d hd hmark
      obtain ⟨hunderscore, hdigit⟩ := isFloatMark_spec hmark
      obtain rfl | hd := List.mem_cons.1 hd
      · exact hunderscore rfl
      · exact Bool.false_ne_true (hdigit.symm.trans ((hchars d hd).resolve_left hunderscore))
    have hspace : ' ' ∉ tail := fun h => absurd (hchars ' ' h) (by decide)
    rw [ofDigits?_other hsign hno (by decide) htail, hmark, if_neg Bool.false_ne_true,
      if_pos ⟨rfl, hspace⟩, hread]
    rfl

/-- The places and the power of a float go on with a mark of a float, if there are any. -/
theorem floatMark_front {places power : List Char} {e : Int} (hplaces : PlacesText places ds)
    (hpower : PowerText power e) (hne : places ++ power ≠ []) :
    ∃ c cs, places ++ power = c :: cs ∧ isFloatMark c = true := by
  cases hplaces with
  | none =>
    obtain rfl | ⟨c, cs, rfl, hc⟩ := hpower.front
    · exact absurd rfl hne
    · exact ⟨c, cs, rfl, by rcases hc with rfl | rfl <;> rfl⟩
  | places => exact ⟨_, _, rfl, rfl⟩

theorem FloatText.ofScalar? {isFinite : Bool} (h : FloatText text isFinite) :
    ofScalar? text = some (.float isFinite) := by
  obtain @⟨sign, whole, places, power, negative, ds, ds', e, isFinite, hsign, hwhole, hzero,
    hplaces, hpower, hne, hfinite⟩ := h
  obtain ⟨mark, cs, hmark, hfloat⟩ := floatMark_front hplaces hpower hne
  obtain ⟨hunderscore, hdigit⟩ := isFloatMark_spec hfloat
  have hdate : mark ≠ '-' ∧ mark ≠ ':' := by constructor <;> rintro rfl <;> cases hfloat
  have hread := float?_of_parts hsign hwhole hzero hplaces hpower hfinite
  rw [hmark] at hread ⊢
  have hrest : NoDigit (mark :: cs) := noDigit_cons hdigit hunderscore cs
  have hno := hwhole.noSign (mark :: cs)
  have hnone : mark ∉ ['x', 'o', 'b'] :=
    not_mem_baseMarks (.inr (List.mem_append_right ['_', '-', ':'] (isFloatMark_iff.1 hfloat)))
  obtain ⟨c, cs', hcs, hc, hbase⟩ :=
    hwhole.noBase (not_mem_baseMarks_of_digits (List.forall_mem_nil _) hnone)
  rw [List.nil_append] at hcs
  rw [hcs, ofScalar?_of_digit hsign hc hbase, ← hcs]
  obtain ⟨htail, -⟩ | ⟨tail, htail, -⟩ := hwhole.tail hrest
  · rw [ofDigits?_other hsign hno hdate htail, List.any_cons, hfloat, Bool.true_or, if_pos rfl,
      hread]
    rfl
  · have hany : ('_' :: (tail ++ mark :: cs)).any isFloatMark = true :=
      List.any_eq_true.2 ⟨mark, by simp, hfloat⟩
    rw [ofDigits?_other hsign hno (by decide) htail, hany, if_pos rfl, hread]
    rfl

theorem DateTimeText.ofScalar? (h : DateTimeText text) : ofScalar? text = some .datetime := by
  -- The digits in front of a date or time end with its first mark.
  have hfront : ∃ c cs mark rest, text = c :: (cs ++ mark :: rest) ∧ c.isDigit = true ∧
      (∀ c ∈ cs, c.isDigit = true) ∧ (mark = '-' ∨ mark = ':') := by
    cases h with
    | date hdate =>
      obtain ⟨c, cs, rest, rfl, hc, hcs⟩ := hdate.front
      exact ⟨c, cs, '-', rest, rfl, hc, hcs, .inl rfl⟩
    | time htime =>
      obtain ⟨a, b, rest, rfl, ha, hb⟩ := htime.front
      exact ⟨a, [b], ':', rest, rfl, ha, by simpa using hb, .inr rfl⟩
    | both hdate =>
      obtain ⟨c, cs, rest, rfl, hc, hcs⟩ := hdate.front
      exact ⟨c, cs, '-', _, by rw [List.cons_append, List.append_assoc, List.cons_append], hc, hcs,
        .inl rfl⟩
  obtain ⟨c, cs, mark, rest, rfl, hc, hcs, hmark⟩ := hfront
  have hends : Ends Char.isDigit (mark :: rest) :=
    ends_cons (by rcases hmark with rfl | rfl <;> rfl) rest
  have htail : (c :: (cs ++ mark :: rest)).dropWhile Char.isDigit = mark :: rest :=
    (run_iff.2 ⟨List.forall_mem_cons.2 ⟨hc, hcs⟩, hends, rfl⟩).2
  have hbase : ∀ d ds, cs ++ mark :: rest = d :: ds → d ∉ ['x', 'o', 'b'] :=
    not_mem_baseMarks_of_digits hcs (by rcases hmark with rfl | rfl <;> decide)
  have hscalar := ofScalar?_of_digit .none hc hbase
  have hread := ofDigits?_date .none (noSign_of_isDigit hc _) hmark htail
  rw [List.nil_append] at hscalar hread
  rw [hscalar, hread, if_pos (isDateTime_iff.2 h)]

/-- Where underscores stand in a decimal integer, letters may pass for digits. -/
theorem standsBetween_hex_iff : StandsBetween isHexDigit false cs ↔
    ∀ before after, cs = before ++ '_' :: after →
      (∃ c d, before.getLast? = some c ∧ IsDigit 16 c d) ∧
        ∃ c d, after.head? = some c ∧ IsDigit 16 c d := by
  refine forall₂_congr fun before after => imp_congr_right fun _ => and_congr ?_ ?_
  · cases before.getLast? with
    | none => simp
    | some c => simp [digitKind_sixteen.exists_iff]
  · simp [digitKind_sixteen.exists_iff]

theorem head?_eq_zero_iff (h : List.Forall₂ (IsDigit 10) text ds) :
    ds.head? = some 0 ↔ text.head? = some '0' := by
  cases h with
  | nil => simp
  | @cons c d text ds hc h =>
    rw [List.head?_cons, List.head?_cons, Option.some.injEq, Option.some.injEq]
    constructor
    · rintro rfl
      exact or_self_iff.1 hc.2
    · rintro rfl
      exact ((digitKind_ten.iff _ _).1 hc).2.symm

theorem LooseText.ofScalar? (h : LooseText text) : ofScalar? text = some (.integer none) := by
  cases h with
  | based hmark =>
    simp only [List.mem_cons, List.not_mem_nil, or_false] at hmark
    rcases hmark with rfl | rfl | rfl <;> rfl
  | @decimal sign text rest negative ds hsign hne h hzero hchars hunderscore htab hloose =>
    obtain ⟨hdigits, -⟩ := digitKind_ten.forall₂_iff.1 h
    rw [ne_eq, head?_eq_zero_iff h] at hzero
    obtain ⟨c, cs, rfl⟩ := List.exists_cons_of_ne_nil hne
    obtain ⟨hc, hcs⟩ := List.forall_mem_cons.1 hdigits
    have hno : NoSign (c :: (cs ++ '_' :: rest)) := noSign_of_isDigit hc _
    have htail : (c :: (cs ++ '_' :: rest)).dropWhile Char.isDigit = '_' :: rest :=
      (run_iff.2 ⟨hdigits, ends_cons rfl rest, rfl⟩).2
    have hbase : ∀ d ds, cs ++ '_' :: rest = d :: ds → d ∉ ['x', 'o', 'b'] :=
      not_mem_baseMarks_of_digits hcs (by decide)
    have hmark : ('_' :: rest).any isFloatMark = false := by
      rw [List.any_eq_false]
      intro d hd hmark
      obtain rfl | hd := List.mem_cons.1 hd
      · cases hmark
      · exact (hchars d hd).2 (isFloatMark_iff.1 hmark)
    have hspace : ' ' ∉ rest := fun h => (hchars ' ' h).1 (by decide)
    have hseparated := (areSeparated_iff rfl).2 (standsBetween_hex_iff.2 hunderscore)
    have hnone : ¬ ∀ d ∈ c :: (cs ++ '_' :: rest), d = '_' ∨ d.isDigit = true := by
      obtain ⟨d, hd, hunder, hdigit⟩ := hloose
      intro hall
      refine hdigit _ ((digitKind_ten.iff d _).2 ⟨(hall d ?_).resolve_left hunder, rfl⟩)
      simp [hd]
    rw [List.cons_append] at hseparated ⊢
    rw [ofScalar?_of_digit hsign hc hbase, ofDigits?_other hsign hno (by decide) htail, hmark,
      if_neg Bool.false_ne_true, if_pos ⟨rfl, hspace⟩, decimalInteger?_eq hsign hno,
      if_neg fun h => hzero h.1, if_pos hseparated, if_neg (mt all_withoutUnderscores_iff.1 hnone)]
    rfl

theorem IntegerText.ofScalar? {n : Int} (h : IntegerText text n) :
    ofScalar? text = some (.integer (known? n)) := by
  cases h with
  | decimal hsign h hzero => exact ofScalar?_decimal hsign h hzero
  | based hmark h =>
    simp only [List.mem_cons, Prod.mk.injEq, List.not_mem_nil, or_false] at hmark
    rcases hmark with ⟨rfl, rfl⟩ | ⟨rfl, rfl⟩ | ⟨rfl, rfl⟩
    · have hread := (basedInteger?_eq_some_iff digitKind_sixteen rfl).2 (.inr ⟨_, h, rfl⟩)
      exact congrArg (Option.map Toml.integer) hread
    · have hread := (basedInteger?_eq_some_iff digitKind_eight rfl).2 (.inr ⟨_, h, rfl⟩)
      exact congrArg (Option.map Toml.integer) hread
    · have hread := (basedInteger?_eq_some_iff digitKind_two rfl).2 (.inr ⟨_, h, rfl⟩)
      exact congrArg (Option.map Toml.integer) hread

theorem ScalarText.ofScalar? (h : ScalarText text v) : ofScalar? text = some v := by
  cases h with
  | true => rfl
  | false => rfl
  | integer h => exact h.ofScalar?
  | loose h => exact h.ofScalar?
  | float h => exact h.ofScalar?
  | special hsign hword => cases hsign <;> rcases hword with rfl | rfl <;> rfl
  | datetime h => exact h.ofScalar?

end Word

/-! ## What is read as a word -/

section Inverse
variable {cs sign value : List Char} {negative : Bool} {v : Toml}

theorem noSign_of_float? {isFinite : Bool} (h : float? cs = some isFinite) :
    NoSign (dropSign cs) := by
  rw [float?] at h
  obtain ⟨⟨ds, rest⟩, hread, -⟩ := Option.bind_eq_some_iff.1 h
  obtain ⟨text, htext, hchars, -, rfl, hne⟩ := readDigits?_eq_some_iff.1 hread
  rw [htext]
  cases text with
  | nil => exact absurd rfl hne
  | cons c text =>
    intro d hd
    obtain rfl := Option.some.inj hd
    have hc := hchars c List.mem_cons_self
    constructor <;> rintro rfl <;> exact absurd hc (by decide)

/-- Digits that go on with an underscore write an integer or a loose number. -/
theorem scalarText_of_underscore (hsign : Sign sign negative) {rest : List Char} {o : Option Int}
    (htail : value.dropWhile Char.isDigit = '_' :: rest)
    (hchars : ∀ c ∈ rest, ¬ IsMark c ∧ c ∉ ['.', 'e', 'E']) (hblanks : KeepsBlanks value)
    (h : decimalInteger? (sign ++ value) = some o) :
    ScalarText (sign ++ value) (.integer o) := by
  obtain ⟨hdigits, -, hvalue⟩ := run_iff.1 ⟨rfl, htail⟩
  have hno : NoSign value := by
    rw [hvalue]
    cases hrun : value.takeWhile Char.isDigit with
    | nil => exact fun c hc => by cases hc; decide
    | cons c run => exact noSign_of_isDigit (hdigits c (hrun ▸ List.mem_cons_self)) _
  by_cases hall : ∀ c ∈ value, c = '_' ∨ c.isDigit = true
  · have hne : value ≠ [] := by
      rintro rfl
      cases htail
    obtain ⟨n, hn, rfl⟩ := integerText_of_decimal hsign hno hne hall h
    exact .integer hn
  · rw [decimalInteger?_eq hsign hno, if_neg (mt all_withoutUnderscores_iff.1 hall),
      Option.ite_none_left_eq_some, Option.ite_none_right_eq_some] at h
    obtain ⟨hfirst, hseparated, ho⟩ := h
    obtain rfl := Option.some.inj ho
    have hstands := (areSeparated_iff rfl).1 hseparated
    generalize hrun : value.takeWhile Char.isDigit = text at hdigits hvalue
    subst hvalue
    have hne : text ≠ [] := by
      rintro rfl
      cases (hstands [] rest rfl).1
    have hds : List.Forall₂ (IsDigit 10) text (text.map hexValue) :=
      digitKind_ten.forall₂_iff.2 ⟨hdigits, rfl⟩
    refine .loose (.decimal hsign hne hds (fun hzero => hfirst ?_) hchars
      (standsBetween_hex_iff.1 hstands) (fun before after hrest => ?_) ?_)
    · obtain ⟨cs, rfl⟩ := List.head?_eq_some_iff.1 ((head?_eq_zero_iff hds).1 hzero)
      exact ⟨rfl, by simp⟩
    · refine hblanks (text ++ '_' :: before) '\t' after ?_ (.inr rfl)
      rw [hrest, List.append_assoc]
      rfl
    · simp only [not_forall, not_or, List.mem_append, List.mem_cons] at hall
      obtain ⟨c, hc, hunderscore, hdigit⟩ := hall
      refine ⟨c, ?_, hunderscore, fun d hd => hdigit ((digitKind_ten.iff c d).1 hd).1⟩
      exact (hc.resolve_left fun hc => hdigit (hdigits c hc)).resolve_left hunderscore

theorem scalarText_of_ofDigits? (hchars : ∀ c ∈ cs, isScalarChar c = true)
    (hblanks : KeepsBlanks cs) (h : ofDigits? cs = some v) : ScalarText cs v := by
  obtain ⟨sign, hsign, hcs⟩ := exists_sign cs
  have hdate : (if isDateTime cs then some Toml.datetime else none) = some v → ScalarText cs v := by
    intro h
    obtain ⟨hdatetime, h⟩ := Option.ite_none_right_eq_some.1 h
    obtain rfl := Option.some.inj h
    exact .datetime (isDateTime_iff.1 hdatetime)
  simp only [ofDigits?] at h
  split at h
  · next htail =>
    obtain ⟨hne, h⟩ := Option.ite_none_left_eq_some.1 h
    obtain ⟨o, ho, rfl⟩ := Option.map_eq_some_iff.1 h
    rw [List.isEmpty_iff] at hne
    have hdigits := List.dropWhile_eq_nil_iff.1 htail
    obtain ⟨c, value, hvalue⟩ := List.exists_cons_of_ne_nil hne
    have hno : NoSign (dropSign cs) := by
      rw [hvalue]
      exact noSign_of_isDigit (hdigits c (hvalue ▸ List.mem_cons_self)) value
    rw [hcs] at ho ⊢
    obtain ⟨n, hn, rfl⟩ := integerText_of_decimal hsign hno hne (fun c hc => .inr (hdigits c hc)) ho
    exact .integer hn
  · exact hdate h
  · exact hdate h
  · next c rest _ _ htail =>
    split at h
    · next hmark =>
      obtain ⟨isFinite, hread, rfl⟩ := Option.map_eq_some_iff.1 h
      have hno := noSign_of_float? hread
      obtain ⟨d, hd, hfloat⟩ := List.any_eq_true.1 hmark
      have hmem : d ∈ dropSign cs := (List.dropWhile_suffix _).subset (htail ▸ hd)
      rw [hcs] at hread ⊢
      exact .float (floatText_of_float? hsign hno ⟨d, hmem, isFloatMark_spec hfloat⟩ hread)
    · next hmark =>
      obtain ⟨hloose, h⟩ := Option.ite_none_right_eq_some.1 h
      obtain ⟨o, ho, rfl⟩ := Option.map_eq_some_iff.1 h
      simp only [Bool.and_eq_true, decide_eq_true_eq, Bool.not_eq_true', List.contains_eq_mem,
        decide_eq_false_iff_not] at hloose
      obtain ⟨rfl, hspace⟩ := hloose
      have hrest : ∀ c ∈ rest, ¬ IsMark c ∧ c ∉ ['.', 'e', 'E'] := by
        intro c hc
        have hmem : c ∈ cs := by
          rw [hcs]
          exact List.mem_append_right sign
            ((List.dropWhile_suffix _).subset (htail ▸ List.mem_cons_of_mem _ hc))
        refine ⟨(isScalarChar_iff.1 (hchars c hmem)).resolve_left ?_, fun hfloat => hmark ?_⟩
        · rintro rfl
          exact hspace hc
        · exact List.any_eq_true.2 ⟨c, List.mem_cons_of_mem _ hc, isFloatMark_iff.2 hfloat⟩
      have hvalue := keepsBlanks_of_append (hcs ▸ hblanks)
      rw [hcs] at ho ⊢
      exact scalarText_of_underscore hsign htail hrest hvalue ho

theorem scalarText_of_based {base : Nat} {kind : Char → Bool} {mark : Char} {ds : List Char}
    (hmark : (mark, base) ∈ [('x', 16), ('o', 8), ('b', 2)]) (hkind : DigitKind base kind)
    (hunderscore : kind '_' = false)
    (h : (basedInteger? base kind ds).map Toml.integer = some v) :
    ScalarText ('0' :: mark :: ds) v := by
  obtain ⟨o, ho, rfl⟩ := Option.map_eq_some_iff.1 h
  have hmarks : mark ∈ [('x', 16), ('o', 8), ('b', 2)].map Prod.fst :=
    List.mem_map.2 ⟨(mark, base), hmark, rfl⟩
  rcases (basedInteger?_eq_some_iff hkind hunderscore).1 ho with ⟨hds, hnone⟩ | ⟨ns, hns, hknown⟩
  · rw [hds, hnone]
    exact .loose (.based hmarks)
  · rw [hknown]
    exact .integer (.based hmark hns)

/-- What a text without marks is read as, it writes. -/
theorem scalarText_of_ofScalar? (hchars : ∀ c ∈ cs, isScalarChar c = true)
    (hblanks : KeepsBlanks cs) (h : ofScalar? cs = some v) : ScalarText cs v := by
  unfold ofScalar? at h
  split at h
  · next htrue =>
    obtain rfl := Option.some.inj h
    rw [htrue]
    exact .true
  split at h
  · next hfalse =>
    obtain rfl := Option.some.inj h
    rw [hfalse]
    exact .false
  split at h
  · next hword =>
    obtain rfl := Option.some.inj h
    obtain ⟨sign, hsign, hcs⟩ := exists_sign cs
    rw [hcs]
    exact .special hsign hword
  split at h
  · exact scalarText_of_based (.head _) digitKind_sixteen rfl h
  · exact scalarText_of_based (.tail _ (.head _)) digitKind_eight rfl h
  · exact scalarText_of_based (.tail _ (.tail _ (.head _))) digitKind_two rfl h
  · exact scalarText_of_ofDigits? hchars hblanks h

end Inverse

/-! ## Reading words -/

section Reading
variable {text sp rest cs : List Char} {v : Toml}

/-- A word is read together with the white space after it, up to a mark. -/
theorem ScalarText.read (h : ScalarText text v) (hsp : Spaces sp) (hrest : Ends isScalarChar rest) :
    readScalar (text ++ (sp ++ rest)) = some (v, rest) := by
  have hword := h.isWord
  obtain ⟨hbare, hlast⟩ := keepsBlanks_iff.1 hword.blanks
  have hspaces := fun c hc => isScalarChar_of_isBlank (hsp c hc)
  obtain ⟨htake, hdrop⟩ := run_iff.2
    ⟨List.forall_mem_append.2 ⟨hword.chars, hspaces⟩, hrest, (List.append_assoc text sp rest).symm⟩
  rw [readScalar, htake, hdrop, withoutLastSpace_append hsp hlast, if_pos hbare, h.ofScalar?]
  rfl

theorem exists_of_readScalar (h : readScalar cs = some (v, rest)) :
    ∃ text sp, ScalarText text v ∧ Spaces sp ∧ cs = text ++ (sp ++ rest) := by
  obtain ⟨hbare, h⟩ := Option.ite_none_right_eq_some.1 h
  obtain ⟨_, hread, heq⟩ := Option.map_eq_some_iff.1 h
  obtain ⟨rfl, hrest⟩ := Prod.mk.inj heq
  obtain ⟨hchars, -, hcs⟩ := run_iff.1 ⟨rfl, hrest⟩
  obtain ⟨sp, hwords, hsp, hlast⟩ := exists_withoutLastSpace (cs.takeWhile isScalarChar)
  refine ⟨_, sp, scalarText_of_ofScalar? (fun c hc => hchars c ?_)
    (keepsBlanks_iff.2 ⟨hbare, hlast⟩) hread, hsp, ?_⟩
  · rw [hwords]
    exact List.mem_append_left sp hc
  · rw [← List.append_assoc, ← hwords, ← hcs]

end Reading

end TvmDebug.Toml
