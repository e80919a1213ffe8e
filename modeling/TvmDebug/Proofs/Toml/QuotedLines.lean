import TvmDebug.Proofs.Toml.Quoted
/-! # Strings over several lines are read as they are written

Quotes may stand in a string over several lines, but never three in a row, and those at its end are
read together with the closing ones (`ReadsLines`). The inductions therefore go over texts with
some quotes in front (`BasicLinesText.read`, `LiteralLinesText.read`). Strings of all forms are read
from their texts (`StringText.read`). -/
set_option autoImplicit false

namespace TvmDebug.Toml

open Text

/-! ## Readers of several lines -/

/-- How a reader takes strings over several lines: character by character, where a quote belongs to
the string if three of them do not stand in a row, or if it stands right before the closing ones. -/
structure ReadsLines (q : Char) (Plain : Char → Prop)
    (read : List Char → Option (List Char × List Char)) : Prop where
  char : ∀ c cs, Plain c → (∀ rest, c = q → cs ≠ q :: q :: rest) →
    read (c :: cs) = prepend c (read cs)
  lineEnd : ∀ cs, read ('\r' :: '\n' :: cs) = prepend '\r' (prepend '\n' (read cs))
  closing : ∀ run ≤ 2, ∀ rest, Ends (· == q) rest →
    read (List.replicate run q ++ q :: q :: q :: rest) = some (List.replicate run q, rest)
  plain_quote : Plain q
  plain_newline : Plain '\n'
  quote_ne : q ≠ '\n'

namespace ReadsLines

variable {q : Char} {Plain : Char → Prop} {read : List Char → Option (List Char × List Char)}

theorem readLineEnd (h : ReadsLines q Plain read) {e : List Char} (he : LineEnd e)
    (cs : List Char) : read (e ++ cs) = e.foldr prepend (read cs) := by
  cases he with
  | newline => exact h.char '\n' cs h.plain_newline fun _ hq => absurd hq.symm h.quote_ne
  | returnNewline => exact h.lineEnd cs

theorem quotes (h : ReadsLines q Plain read) {run : Nat} (hrun : run ≤ 2) {cs : List Char}
    (hcs : Ends (· == q) cs) :
    read (List.replicate run q ++ cs) = (List.replicate run q).foldr prepend (read cs) := by
  induction run with
  | zero => rfl
  | succ run ih =>
    rw [List.replicate_succ, List.cons_append, List.foldr_cons, ← ih (by omega)]
    refine h.char q _ h.plain_quote fun rest _ hrest => ?_
    obtain rfl | rfl : run = 0 ∨ run = 1 := by omega
    · exact ne_cons_of_ends hcs _ hrest
    · exact ne_cons_of_ends hcs _ (List.cons.inj hrest).2

/-- After some quotes a reader goes on with what is none. -/
theorem goOn (h : ReadsLines q Plain read) {run : Nat} (hrun : run ≤ 2) (front s : List Char)
    {cs s' rest : List Char} (hends : Ends (· == q) (front ++ cs))
    (hfront : read (front ++ cs) = s.foldr prepend (read cs)) (hread : read cs = some (s', rest)) :
    read (List.replicate run q ++ (front ++ cs)) =
      some (List.replicate run q ++ (s ++ s'), rest) := by
  rw [h.quotes hrun hends, hfront, hread, foldr_prepend, foldr_prepend]

end ReadsLines

/-! ## Several lines, between double quotes -/

theorem readsLines_basic :
    ReadsLines '"' (fun c => (IsPrintable c ∨ c = '\n') ∧ c ≠ '\\') (readBasicLinesFrom false) where
  char := by
    rintro c cs ⟨hc, hslash⟩ hquote
    have hreturn : c ≠ '\r' := by
      rintro rfl
      exact absurd hc (by decide)
    have hread := readBasicLinesFrom.eq_14 false c cs
      (fun _ h h' => hquote _ h h') (fun _ h h' => hquote _ h h') (fun _ h h' => hquote _ h h')
      (fun _ h => absurd h hreturn) (fun _ _ _ h => absurd h hslash)
      (fun _ _ _ _ _ h => absurd h hslash) (fun _ _ _ _ _ _ _ _ _ h => absurd h hslash)
      (fun _ _ h => absurd h hslash) nofun nofun nofun nofun
    have hplain : ((isPlain c || c == '\n') && c != '\\') = true := by
      rw [Bool.and_eq_true, Bool.or_eq_true, isPlain_iff, beq_iff_eq, bne_iff_ne]
      exact ⟨hc, hslash⟩
    rwa [if_pos hplain] at hread
  lineEnd := fun _ => rfl
  closing := by
    intro run hrun rest hrest
    obtain rfl | rfl | rfl : run = 0 ∨ run = 1 ∨ run = 2 := by omega
    · exact readBasicLinesFrom.eq_8 false rest (fun _ => ne_cons_of_ends hrest _)
        fun _ => ne_cons_of_ends hrest _
    · exact readBasicLinesFrom.eq_7 false rest fun _ => ne_cons_of_ends hrest _
    · rfl
  plain_quote := by decide
  plain_newline := by decide
  quote_ne := by decide

/-- A backslash before what does not begin the code of a character. -/
theorem readBasicLinesFrom_escape {c : Char} (hx : c ≠ 'x') (hu : c ≠ 'u') (hU : c ≠ 'U')
    (cs : List Char) : readBasicLinesFrom false ('\\' :: c :: cs) =
      match escapedChar? c with
      | some x => prepend x (readBasicLinesFrom false cs)
      | none =>
        if (afterLineEnd? ((c :: cs).dropWhile isSpace)).isSome then
          readBasicLinesFrom true (c :: cs)
        else none :=
  readBasicLinesFrom.eq_13 false c cs (fun _ _ _ h => absurd h hx)
    (fun _ _ _ _ _ h => absurd h hu) fun _ _ _ _ _ _ _ _ _ h => absurd h hU

theorem CharText.readLines {c : Char} {s : List Char} (h : CharText c s) (cs : List Char) :
    readBasicLinesFrom false (s ++ cs) = prepend c (readBasicLinesFrom false cs) := by
  cases h with
  | itself hc hquote hslash =>
    exact readsLines_basic.char c cs ⟨.inl hc, hslash⟩ fun _ h => absurd h hquote
  | @letter e he =>
    have he' := escapedChar?_eq_some_iff.2 he
    obtain ⟨hx, hu, hU⟩ := ne_of_escapedChar? he'
    have hread := readBasicLinesFrom_escape hx hu hU cs
    rw [he'] at hread
    exact hread
  | code hmark hds hc =>
    have hhex := ofHex?_eq_some_iff.2 ⟨_, hds, hc⟩
    obtain ⟨rfl, a, b, rfl⟩ | ⟨rfl, a, b, c', d, rfl⟩ | ⟨rfl, a, b, c', d, e, f, g, h, rfl⟩ :=
      code_cases hmark <;>
      exact congrArg (Option.bind · fun x => prepend x (readBasicLinesFrom false cs)) hhex

/-! ### Lines that are joined -/

theorem readBasicLinesFrom_blanks {blanks : List Char} (h : Blanks blanks) (cs : List Char) :
    readBasicLinesFrom true (blanks ++ cs) = readBasicLinesFrom true cs := by
  induction h with
  | nil => rfl
  | space hc h ih =>
    obtain rfl | rfl := hc
    · exact ih
    · exact ih
  | lineEnd he h ih =>
    rw [List.append_assoc]
    cases he
    · exact ih
    · exact ih

/-- What is skipped ends where neither a blank nor a line end stands. -/
theorem readBasicLinesFrom_ends {cs : List Char} (hspace : Ends isSpace cs) (hline : NoLineEnd cs) :
    readBasicLinesFrom true cs = readBasicLinesFrom false cs := by
  have hnone := afterLineEnd?_eq_none_iff.2 hline
  fun_cases readBasicLinesFrom true cs with
  | case1 | case6 => rfl
  | case2 | case3 => cases hnone
  | case4 | case5 => exact absurd (hspace _ rfl) (by decide)
  | case7 | case8 | case9 | case10 | case11 | case12 | case13 | case14 | case15 | case16 =>
    simp_all [readBasicLinesFrom]
  | case17 _ c cs _ _ _ _ _ _ _ _ hc =>
    have hread := readBasicLinesFrom.eq_14 false c cs
    simp_all

theorem spaces_blanks {sp blanks : List Char} (hsp : Spaces sp) (h : Blanks blanks) :
    Blanks (sp ++ blanks) := by
  induction sp with
  | nil => exact h
  | cons c sp ih =>
    obtain ⟨hc, hsp⟩ := List.forall_mem_cons.1 hsp
    exact .space hc (ih hsp)

/-- A backslash at the end of a line. -/
theorem readBasicLinesFrom_backslash {sp e : List Char} (hsp : Spaces sp) (he : LineEnd e)
    (cs : List Char) : readBasicLinesFrom false ('\\' :: (sp ++ (e ++ cs))) =
      readBasicLinesFrom true (sp ++ (e ++ cs)) := by
  obtain ⟨d, ds, rfl, hd⟩ := he.front
  have hline : (afterLineEnd? ((sp ++ (d :: ds ++ cs)).dropWhile isSpace)).isSome = true := by
    have hspace : isSpace d = false := by rcases hd with rfl | rfl <;> rfl
    rw [List.dropWhile_append_of_pos fun c hc => isSpace_iff.2 (hsp c hc), List.cons_append,
      (ends_cons hspace _).dropWhile_eq_self, ← List.cons_append,
      afterLineEnd?_eq_some_iff.2 ⟨_, he, rfl⟩]
    rfl
  obtain ⟨c, cs', hcs, hc⟩ : ∃ c cs', sp ++ (d :: ds ++ cs) = c :: cs' ∧
      escapedChar? c = none ∧ c ≠ 'x' ∧ c ≠ 'u' ∧ c ≠ 'U' := by
    cases sp with
    | nil => exact ⟨d, _, rfl, by rcases hd with rfl | rfl <;> decide⟩
    | cons c sp => exact ⟨c, _, rfl, by rcases hsp c List.mem_cons_self with rfl | rfl <;> decide⟩
  obtain ⟨hnone, hx, hu, hU⟩ := hc
  rw [hcs] at hline ⊢
  rw [readBasicLinesFrom_escape hx hu hU]
  simp only [hnone, hline, if_true]

theorem BasicLinesText.read {run : Nat} {cs text rest : List Char} (h : BasicLinesText run cs text)
    (hrun : run ≤ 2) (hrest : Ends (· == '"') rest) :
    readBasicLinesFrom false (List.replicate run '"' ++ (text ++ '"' :: '"' :: '"' :: rest)) =
      some (List.replicate run '"' ++ cs, rest) := by
  -- The quotes in front are read with what follows them, so they stay in the text.
  induction h with
  | nil run =>
    rw [List.nil_append, List.append_nil]
    exact readsLines_basic.closing run hrun rest hrest
  | @char run c cs s text hc h ih =>
    obtain ⟨d, s', hs, hd, -⟩ := hc.front
    rw [List.append_assoc]
    refine readsLines_basic.goOn hrun s [c] ?_ (hc.readLines _) (ih (Nat.zero_le 2))
    rw [hs]
    exact ends_of_ne hd _
  | @lineEnd run e cs text he h ih =>
    obtain ⟨d, ds, hds, hd⟩ := he.front
    rw [List.append_assoc]
    refine readsLines_basic.goOn hrun e e ?_ (readsLines_basic.readLineEnd he _)
      (ih (Nat.zero_le 2))
    rw [hds]
    exact ends_of_ne (by rcases hd with rfl | rfl <;> decide) _
  | @quote run cs text hquotes h ih =>
    have hread := ih (Nat.succ_le_of_lt hquotes)
    rwa [List.replicate_succ', List.append_assoc, List.append_assoc] at hread
  | @join run sp e blanks cs text hsp he hblanks hspace hline h ih =>
    have hends : Ends isSpace (text ++ '"' :: '"' :: '"' :: rest) := by
      cases text with
      | nil => exact ends_cons rfl _
      | cons c text =>
        exact ends_cons (Bool.eq_false_iff.2 fun hc => hspace c rfl (isSpace_iff.1 hc)) _
    have hjoin : readBasicLinesFrom false
        ('\\' :: (sp ++ (e ++ blanks)) ++ (text ++ '"' :: '"' :: '"' :: rest)) =
          readBasicLinesFrom false (text ++ '"' :: '"' :: '"' :: rest) := by
      have hskip := readBasicLinesFrom_blanks (spaces_blanks hsp (.lineEnd he hblanks))
        (text ++ '"' :: '"' :: '"' :: rest)
      rw [List.cons_append, List.append_assoc, List.append_assoc,
        readBasicLinesFrom_backslash hsp he, ← List.append_assoc e, ← List.append_assoc sp, hskip,
        readBasicLinesFrom_ends hends (hline.closing (by decide) _)]
    have hgoOn := readsLines_basic.goOn hrun ('\\' :: (sp ++ (e ++ blanks))) []
      (ends_of_ne (by decide) _) hjoin (ih (Nat.zero_le 2))
    rw [← List.append_assoc e, ← List.append_assoc sp, ← List.cons_append, List.append_assoc]
    exact hgoOn

/-- Other texts than quotes may stand after any number of quotes. -/
theorem BasicLinesText.after {run run' : Nat} {cs text : List Char} (h : BasicLinesText run cs text)
    (hquote : ∀ rest, text ≠ '"' :: rest) : BasicLinesText run' cs text := by
  cases h with
  | nil => exact .nil run'
  | char hc h => exact .char hc h
  | lineEnd he h => exact .lineEnd he h
  | quote => exact absurd rfl (hquote _)
  | join hsp he hblanks hspace hline h => exact .join hsp he hblanks hspace hline h

theorem BasicLinesText.of_quote {run : Nat} {cs text rest : List Char}
    (h : BasicLinesText run cs text) (htext : text = '"' :: rest) :
    ∃ cs', cs = '"' :: cs' ∧ BasicLinesText (run + 1) cs' rest := by
  cases h with
  | nil => cases htext
  | char hc h =>
    obtain ⟨d, s', rfl, hd, -⟩ := hc.front
    exact absurd (List.cons.inj htext).1 hd
  | lineEnd he h =>
    obtain ⟨d, ds, rfl, hd⟩ := he.front
    obtain rfl := (List.cons.inj htext).1
    exact absurd hd (by decide)
  | quote _ h =>
    obtain rfl := (List.cons.inj htext).2
    exact ⟨_, rfl, h⟩
  | join => exact absurd (List.cons.inj htext).1 (by decide)

/-- A quote may stand in front unless three are in a row then. -/
theorem BasicLinesText.afterQuote {cs text : List Char} (h : BasicLinesText 0 cs text)
    (hquotes : ∀ rest, text ≠ '"' :: '"' :: rest) : BasicLinesText 1 cs text := by
  by_cases hquote : ∃ rest, text = '"' :: rest
  · obtain ⟨rest, rfl⟩ := hquote
    obtain ⟨cs', rfl, h'⟩ := h.of_quote rfl
    exact .quote (by decide) (h'.after fun rest' hrest => hquotes rest' (by rw [hrest]))
  · exact h.after fun rest hrest => hquote ⟨rest, hrest⟩

/-- What is skipped are blanks and line ends. -/
theorem exists_blanks (cs : List Char) : ∃ blanks cs', cs = blanks ++ cs' ∧ Blanks blanks ∧
    Ends isSpace cs' ∧ NoLineEnd cs' := by
  induction hlength : cs.length using Nat.strongRecOn generalizing cs with
  | ind size ih =>
    cases hline : afterLineEnd? cs with
    | some rest =>
      obtain ⟨e, he, rfl⟩ := afterLineEnd?_eq_some_iff.1 hline
      obtain ⟨d, ds, hds, -⟩ := he.front
      obtain ⟨blanks, cs', rfl, hblanks, hends⟩ := ih rest.length
        (by rw [← hlength, hds, List.length_append, List.length_cons]; omega) rest rfl
      exact ⟨_, cs', (List.append_assoc _ _ _).symm, .lineEnd he hblanks, hends⟩
    | none =>
      have hno := afterLineEnd?_eq_none_iff.1 hline
      cases cs with
      | nil => exact ⟨[], [], rfl, .nil, ends_nil _, hno⟩
      | cons c cs =>
        by_cases hc : isSpace c = true
        · obtain ⟨blanks, cs', rfl, hblanks, hends⟩ := ih cs.length
            (by rw [← hlength, List.length_cons]; omega) cs rfl
          exact ⟨_, cs', (List.cons_append ..).symm, .space (isSpace_iff.1 hc) hblanks, hends⟩
        · exact ⟨[], _, rfl, .nil, ends_cons (Bool.eq_false_iff.2 hc) _, hno⟩

/-- A backslash joins its line with what is read after all that is skipped. -/
theorem takes_joined {cs : List Char} (hline : (afterLineEnd? (cs.dropWhile isSpace)).isSome = true)
    (ih : ∀ cs', cs'.length < cs.length →
      Takes (BasicLinesText 0) ['"', '"', '"'] (readBasicLinesFrom false cs') cs') :
    Takes (BasicLinesText 0) ['"', '"', '"'] (readBasicLinesFrom true cs) ('\\' :: cs) := by
  obtain ⟨rest, hrest⟩ := Option.isSome_iff_exists.1 hline
  obtain ⟨e, he, hdrop⟩ := afterLineEnd?_eq_some_iff.1 hrest
  obtain ⟨blanks, cs', rfl, hblanks, hspace, hno⟩ := exists_blanks rest
  have hsp : Spaces (cs.takeWhile isSpace) := fun x hx =>
    isSpace_iff.1 (List.all_eq_true.1 List.all_takeWhile x hx)
  have hcs : cs = cs.takeWhile isSpace ++ (e ++ (blanks ++ cs')) := by
    rw [← hdrop, List.takeWhile_append_dropWhile]
  have hshorter : cs'.length < cs.length := by
    obtain ⟨d, ds, hd, -⟩ := he.front
    rw [hcs, hd]
    simp only [List.length_append, List.length_cons]
    omega
  generalize cs.takeWhile isSpace = sp at hsp hcs
  have hskip := readBasicLinesFrom_blanks (spaces_blanks hsp (.lineEnd he hblanks)) cs'
  rw [List.append_assoc, List.append_assoc] at hskip
  rw [hcs, hskip, readBasicLinesFrom_ends hspace hno]
  intro s rest' hs
  obtain ⟨text, htext, rfl⟩ := ih cs' hshorter s rest' hs
  refine ⟨_, .join hsp he hblanks (fun x hx hx' => ?_) hno.of_append htext, by simp⟩
  have hends : isSpace x = false := hspace x (by rw [List.head?_append, hx]; rfl)
  rw [isSpace_iff.2 hx'] at hends
  cases hends

theorem takes_readBasicLinesFrom (cs : List Char) :
    Takes (BasicLinesText 0) ['"', '"', '"'] (readBasicLinesFrom false cs) cs := by
  induction hlength : cs.length using Nat.strongRecOn generalizing cs with
  | ind size ih =>
    have hchar : ∀ {c : Char} {s cs' : List Char}, CharText c s → cs = s ++ cs' →
        Takes (BasicLinesText 0) ['"', '"', '"'] (prepend c (readBasicLinesFrom false cs')) cs := by
      intro c s cs' hc hcs
      obtain ⟨d, s', hs, -⟩ := hc.front
      rw [hcs]
      refine (ih cs'.length ?_ cs' rfl).prepend s fun _ _ => .char hc
      rw [← hlength, hcs, hs, List.length_append, List.length_cons]
      omega
    generalize hskip : false = skipping
    fun_cases readBasicLinesFrom skipping cs with
    | case1 => exact takes_none
    | case2 | case3 | case4 | case5 => cases hskip
    | case6 cs =>
      exact takes_closed ['"', '"'] (.quote (by decide) (.quote (by decide) (.nil 2)))
    | case7 cs => exact takes_closed ['"'] (.quote (by decide) (.nil 1))
    | case8 cs => exact takes_closed [] (.nil 0)
    | case9 _ cs =>
      rw [List.length_cons, List.length_cons] at hlength
      exact (ih cs.length (by omega) cs rfl).prependTwo fun _ _ h => .lineEnd .returnNewline h
    | case10 _ a b cs =>
      exact takes_bind fun x hx => hchar (charText_code [a, b] (.head _) hx) rfl
    | case11 _ a b c d cs =>
      exact takes_bind fun x hx => hchar (charText_code [a, b, c, d] (.tail _ (.head _)) hx) rfl
    | case12 _ a b c d e f g h cs =>
      exact takes_bind fun x hx =>
        hchar (charText_code [a, b, c, d, e, f, g, h] (.tail _ (.tail _ (.head _))) hx) rfl
    | case13 _ c cs _ _ _ x hx => exact hchar (.letter (escapedChar?_eq_some_iff.1 hx)) rfl
    | case14 _ c cs _ _ _ _ hline =>
      exact takes_joined hline fun cs' hshorter =>
        ih cs'.length (by rw [List.length_cons] at hlength; omega) cs' rfl
    | case15 => exact takes_none
    | case16 _ c cs _ _ _ _ _ _ hquotes _ _ _ _ _ hc =>
      rw [Bool.and_eq_true, Bool.or_eq_true, isPlain_iff, beq_iff_eq, bne_iff_ne] at hc
      obtain ⟨hc, hslash⟩ := hc
      rw [List.length_cons] at hlength
      by_cases hquote : c = '"'
      · subst hquote
        intro s rest hs
        obtain ⟨s', rfl, hr⟩ := prepend_eq_some_iff.1 hs
        obtain ⟨text, htext, rfl⟩ := ih cs.length (by omega) cs rfl s' rest hr
        refine ⟨'"' :: text, .quote (by decide) (htext.afterQuote ?_), rfl⟩
        rintro rest' rfl
        exact hquotes _ rfl rfl
      · rcases hc with hc | rfl
        · exact hchar (.itself hc hquote hslash) rfl
        · exact (ih cs.length (by omega) cs rfl).prepend ['\n'] fun _ _ h => .lineEnd .newline h
    | case17 => exact takes_none

/-! ## Several lines, between single quotes -/

theorem readsLines_literal :
    ReadsLines '\'' (fun c => IsPrintable c ∨ c = '\n') readLiteralLinesFrom where
  char := by
    intro c cs hc hquote
    have hreturn : c ≠ '\r' := by
      rintro rfl
      exact absurd hc (by decide)
    have hread := readLiteralLinesFrom.eq_6 c cs (fun _ h h' => hquote _ h h')
      (fun _ h h' => hquote _ h h') (fun _ h h' => hquote _ h h') fun _ h => absurd h hreturn
    have hplain : (isPlain c || c == '\n') = true := by
      rw [Bool.or_eq_true, isPlain_iff, beq_iff_eq]
      exact hc
    rwa [if_pos hplain] at hread
  lineEnd := fun _ => rfl
  closing := by
    intro run hrun rest hrest
    obtain rfl | rfl | rfl : run = 0 ∨ run = 1 ∨ run = 2 := by omega
    · exact readLiteralLinesFrom.eq_4 rest (fun _ => ne_cons_of_ends hrest _)
        fun _ => ne_cons_of_ends hrest _
    · exact readLiteralLinesFrom.eq_3 rest fun _ => ne_cons_of_ends hrest _
    · rfl
  plain_quote := by decide
  plain_newline := by decide
  quote_ne := by decide

theorem LiteralLinesText.read {run : Nat} {cs rest : List Char} (h : LiteralLinesText run cs)
    (hrun : run ≤ 2) (hrest : Ends (· == '\'') rest) :
    readLiteralLinesFrom (List.replicate run '\'' ++ (cs ++ '\'' :: '\'' :: '\'' :: rest)) =
      some (List.replicate run '\'' ++ cs, rest) := by
  induction h with
  | nil run =>
    rw [List.nil_append, List.append_nil]
    exact readsLines_literal.closing run hrun rest hrest
  | @char run c cs hc hquote h ih =>
    exact readsLines_literal.goOn hrun [c] [c] (ends_of_ne hquote _)
      (readsLines_literal.char c _ (.inl hc) fun _ h => absurd h hquote) (ih (Nat.zero_le 2))
  | @lineEnd run e cs he h ih =>
    obtain ⟨d, ds, hds, hd⟩ := he.front
    rw [List.append_assoc]
    refine readsLines_literal.goOn hrun e e ?_ (readsLines_literal.readLineEnd he _)
      (ih (Nat.zero_le 2))
    rw [hds]
    exact ends_of_ne (by rcases hd with rfl | rfl <;> decide) _
  | @quote run cs hquotes h ih =>
    have hread := ih (Nat.succ_le_of_lt hquotes)
    rwa [List.replicate_succ', List.append_assoc, List.append_assoc] at hread

theorem LiteralLinesText.after {run run' : Nat} {cs : List Char} (h : LiteralLinesText run cs)
    (hquote : ∀ rest, cs ≠ '\'' :: rest) : LiteralLinesText run' cs := by
  cases h with
  | nil => exact .nil run'
  | char hc hne h => exact .char hc hne h
  | lineEnd he h => exact .lineEnd he h
  | quote => exact absurd rfl (hquote _)

theorem LiteralLinesText.of_quote {run : Nat} {cs rest : List Char} (h : LiteralLinesText run cs)
    (hcs : cs = '\'' :: rest) : LiteralLinesText (run + 1) rest := by
  cases h with
  | nil => cases hcs
  | char _ hquote => exact absurd (List.cons.inj hcs).1 hquote
  | lineEnd he h =>
    obtain ⟨d, ds, rfl, hd⟩ := he.front
    obtain rfl := (List.cons.inj hcs).1
    exact absurd hd (by decide)
  | quote _ h =>
    obtain rfl := (List.cons.inj hcs).2
    exact h

theorem LiteralLinesText.afterQuote {cs : List Char} (h : LiteralLinesText 0 cs)
    (hquotes : ∀ rest, cs ≠ '\'' :: '\'' :: rest) : LiteralLinesText 1 cs := by
  by_cases hquote : ∃ rest, cs = '\'' :: rest
  · obtain ⟨rest, rfl⟩ := hquote
    exact .quote (by decide)
      ((h.of_quote rfl).after fun rest' hrest => hquotes rest' (by rw [hrest]))
  · exact h.after fun rest hrest => hquote ⟨rest, hrest⟩

/-- A string over several lines that is its own text. -/
def LiteralLines (s text : List Char) : Prop := text = s ∧ LiteralLinesText 0 s

theorem takes_readLiteralLinesFrom (cs : List Char) :
    Takes LiteralLines ['\'', '\'', '\''] (readLiteralLinesFrom cs) cs := by
  fun_induction readLiteralLinesFrom cs with
  | case1 => exact takes_none
  | case2 cs =>
    exact takes_closed ['\'', '\''] ⟨rfl, .quote (by decide) (.quote (by decide) (.nil 2))⟩
  | case3 cs => exact takes_closed ['\''] ⟨rfl, .quote (by decide) (.nil 1)⟩
  | case4 cs => exact takes_closed [] ⟨rfl, .nil 0⟩
  | case5 cs ih =>
    exact ih.prependTwo fun _ _ h => ⟨by rw [h.1], .lineEnd .returnNewline h.2⟩
  | case6 c cs _ _ hquotes _ hc ih =>
    rw [Bool.or_eq_true, isPlain_iff, beq_iff_eq] at hc
    intro s rest hs
    obtain ⟨s', rfl, hr⟩ := prepend_eq_some_iff.1 hs
    obtain ⟨text, ⟨rfl, htext⟩, rfl⟩ := ih s' rest hr
    refine ⟨c :: text, ⟨rfl, ?_⟩, rfl⟩
    by_cases hquote : c = '\''
    · subst hquote
      refine .quote (by decide) (htext.afterQuote ?_)
      rintro rest' rfl
      exact hquotes _ rfl rfl
    · rcases hc with hc | rfl
      · exact .char hc hquote htext
      · exact .lineEnd .newline htext
  | case7 => exact takes_none

/-! ## Strings with their quotes -/

theorem Opened.drop {text text' : List Char} (h : Opened text text') {q : Char}
    (hq : q ≠ '\n' ∧ q ≠ '\r') (rest : List Char) :
    dropLineEnd (text ++ q :: rest) = text' ++ q :: rest := by
  cases h with
  | lineEnd he text =>
    rw [dropLineEnd, List.append_assoc, afterLineEnd?_eq_some_iff.2 ⟨_, he, rfl⟩]
    rfl
  | none h =>
    rw [dropLineEnd, afterLineEnd?_eq_none_iff.2 (h.closing hq rest)]
    rfl

/-- What is read after the opening quotes is read from a text that is opened. -/
theorem Takes.opened {Text : List Char → List Char → Prop} {closing cs : List Char}
    {r : Option (List Char × List Char)} (h : Takes Text closing r (dropLineEnd cs)) :
    Takes (fun s text => ∃ text', Opened text text' ∧ Text s text') closing r cs := by
  intro s rest hs
  obtain ⟨text', htext, hdrop⟩ := h s rest hs
  cases hline : afterLineEnd? cs with
  | some rest' =>
    obtain ⟨e, he, rfl⟩ := afterLineEnd?_eq_some_iff.1 hline
    rw [dropLineEnd, hline, Option.getD_some] at hdrop
    exact ⟨e ++ text', ⟨text', .lineEnd he text', htext⟩, by rw [hdrop, List.append_assoc]⟩
  | none =>
    rw [dropLineEnd, hline, Option.getD_none] at hdrop
    have hno := afterLineEnd?_eq_none_iff.1 hline
    rw [hdrop] at hno
    exact ⟨text', ⟨text', .none hno.of_append, htext⟩, hdrop⟩

theorem StringText.read {s text rest : List Char} (h : StringText s text)
    (hdouble : Ends (· == '"') rest) (hsingle : Ends (· == '\'') rest) (fuel room : Nat) :
    readValue (fuel + 1) room (text ++ rest) = some (.string (String.ofList s), rest) := by
  cases h with
  | basic h =>
    rw [List.cons_append, List.append_assoc, List.singleton_append,
      readValue.eq_3 room fuel _ (h.ne_quotes hdouble), h.read]
    rfl
  | literal h =>
    rw [List.cons_append, List.append_assoc, List.singleton_append,
      readValue.eq_5 room fuel _ (h.ne_quotes hsingle), h.read]
    rfl
  | basicLines hopened h =>
    have hread := h.read (Nat.zero_le 2) hdouble
    simp only [List.cons_append, List.append_assoc, List.nil_append]
    rw [readValue.eq_2, readBasicLines, hopened.drop (by decide)]
    exact congrArg stringOf hread
  | literalLines hopened h =>
    have hread := h.read (Nat.zero_le 2) hsingle
    simp only [List.cons_append, List.append_assoc, List.nil_append]
    rw [readValue.eq_4, readLiteralLines, hopened.drop (by decide)]
    exact congrArg stringOf hread

end TvmDebug.Toml
