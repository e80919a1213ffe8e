import TvmDebug.Proofs.Toml.Quoted
/-! # White space, comments and keys are read as they are written

What stands between two parts of a document is skipped, up to the next of them (`Gap.skip`), and so
is the end of a line (`nextLine?_eq_some_iff`). Keys are read with the white space around them
(`PathText.read`). What is skipped and read is such a text (`exists_gap`, `exists_path`). -/
set_option autoImplicit false

namespace TvmDebug.Toml

open Text

/-! ## White space -/

section Space
variable {c : Char} {cs sp rest : List Char}

theorem spaces_nil : Spaces [] := List.forall_mem_nil _

theorem Spaces.append (h : Spaces sp) {sp' : List Char} (h' : Spaces sp') : Spaces (sp ++ sp') :=
  List.forall_mem_append.2 ⟨h, h'⟩

theorem Spaces.isSpace (h : Spaces sp) : ∀ c ∈ sp, isSpace c = true := fun c hc =>
  isSpace_iff.2 (h c hc)

theorem isSpace_eq_false (h : ¬ IsBlank c) : isSpace c = false :=
  Bool.eq_false_iff.2 (mt isSpace_iff.1 h)

theorem skipSpace_append (h : Spaces sp) (cs : List Char) : skipSpace (sp ++ cs) = skipSpace cs :=
  List.dropWhile_append_of_pos h.isSpace

theorem skipSpace_cons (h : ¬ IsBlank c) (cs : List Char) : skipSpace (c :: cs) = c :: cs :=
  (ends_cons (isSpace_eq_false h) cs).dropWhile_eq_self

theorem exists_spaces (cs : List Char) : ∃ sp, Spaces sp ∧ cs = sp ++ skipSpace cs := by
  obtain ⟨hrun, -, hcs⟩ := run_iff.1 ⟨rfl, (rfl : cs.dropWhile isSpace = skipSpace cs)⟩
  exact ⟨_, fun c hc => isSpace_iff.1 (hrun c hc), hcs⟩

/-- Neither white space nor a comment nor a line end begins with the character. -/
def Begins (c : Char) : Prop := ¬ IsBlank c ∧ c ∉ ['#', '\n', '\r']

instance (c : Char) : Decidable (Begins c) := inferInstanceAs (Decidable (_ ∧ _))

theorem Begins.ne (h : Begins c) : c ≠ '#' ∧ c ≠ '\n' ∧ c ≠ '\r' := by
  simpa using h.2

theorem Begins.noLineEnd (h : Begins c) (cs : List Char) : NoLineEnd (c :: cs) :=
  noLineEnd_of_front h.ne.2.1 h.ne.2.2 cs

/-- What closes or parts keys and values, a comment or a line end begins with the character. -/
def Delimits (c : Char) : Prop := c ∈ ['=', ',', ']', '\x7d', '#', '\n', '\r']

instance (c : Char) : Decidable (Delimits c) := inferInstanceAs (Decidable (_ ∈ _))

/-- What may stand after a key or a value and spaces. -/
def Closes (rest : List Char) : Prop := ∀ c, rest.head? = some c → Delimits c

theorem closes_cons (h : Delimits c) (rest : List Char) : Closes (c :: rest) := by
  intro d hd
  rwa [← Option.some.inj hd]

theorem Delimits.cases (h : Delimits c) :
    c = '=' ∨ c = ',' ∨ c = ']' ∨ c = '\x7d' ∨ c = '#' ∨ c = '\n' ∨ c = '\r' := by
  simpa [Delimits] using h

/-- What comes after spaces and closes begins with no other character. -/
theorem Closes.ends {kind : Char → Bool} (h : Closes rest) (hsp : Spaces sp)
    (hblank : kind ' ' = false ∧ kind '\t' = false) (hmarks : ∀ c, Delimits c → kind c = false) :
    Ends kind (sp ++ rest) := by
  intro c hc
  cases sp with
  | nil => exact hmarks c (h c hc)
  | cons d sp =>
    obtain rfl := Option.some.inj hc
    rcases hsp d List.mem_cons_self with rfl | rfl
    · exact hblank.1
    · exact hblank.2

theorem skipSpace_closes (h : Closes rest) (hsp : Spaces sp) : skipSpace (sp ++ rest) = rest := by
  rw [skipSpace_append hsp]
  have hends : Ends isSpace rest := fun c hc => by
    rcases (h c hc).cases with rfl | rfl | rfl | rfl | rfl | rfl | rfl <;> rfl
  exact hends.dropWhile_eq_self

end Space

/-! ## Comments and line ends -/

section Comments
variable {c : Char} {cs comment e sp rest next : List Char}

theorem notLineEnd_eq_false_iff : notLineEnd c = false ↔ c = '\n' ∨ c = '\r' := by
  simp [notLineEnd, or_iff_not_imp_left]

theorem IsPrintable.notLineEnd (h : IsPrintable c) : notLineEnd c = true := by
  rw [← Bool.not_eq_false, notLineEnd_eq_false_iff, not_or]
  exact h.ne_lineEnd

theorem LineEnd.ends (h : LineEnd e) (rest : List Char) : Ends notLineEnd (e ++ rest) := by
  obtain ⟨c, cs, rfl, rfl | rfl⟩ := h.front <;> exact ends_cons rfl _

theorem LineBreak.ends (h : LineBreak rest next) : Ends notLineEnd rest := by
  cases h with
  | lineEnd he => exact he.ends _
  | last => exact ends_nil _

theorem LineBreak.closes (h : LineBreak rest next) : Closes rest := by
  intro c hc
  rcases notLineEnd_eq_false_iff.1 (h.ends c hc) with rfl | rfl <;> decide

theorem closes_comment (hcomment : CommentText comment) (hrest : Closes rest) :
    Closes (comment ++ rest) := by
  cases hcomment with
  | none => exact hrest
  | comment => exact closes_cons (by decide) _

theorem afterComment?_of_ends (hcs : ∀ c ∈ cs, IsPrintable c) (hrest : Ends notLineEnd rest) :
    afterComment? ('#' :: (cs ++ rest)) = some rest := by
  obtain ⟨htake, hdrop⟩ := run_iff.2 ⟨fun c hc => (hcs c hc).notLineEnd, hrest, rfl⟩
  rw [afterComment?, htake, hdrop, if_pos (List.all_eq_true.2 fun c hc => isPlain_iff.2 (hcs c hc))]

theorem exists_of_afterComment? (h : afterComment? ('#' :: cs) = some rest) :
    ∃ comment, (∀ c ∈ comment, IsPrintable c) ∧ cs = comment ++ rest := by
  rw [afterComment?, Option.ite_none_right_eq_some, Option.some.injEq] at h
  obtain ⟨hplain, hrest⟩ := h
  obtain ⟨-, -, hcs⟩ := run_iff.1 ⟨rfl, hrest⟩
  exact ⟨_, fun c hc => isPlain_iff.1 (List.all_eq_true.1 hplain c hc), hcs⟩

theorem afterComment?_of_front (h : ∀ cs', cs ≠ '#' :: cs') : afterComment? cs = some cs :=
  afterComment?.eq_2 cs h

theorem CommentText.after (h : CommentText comment) (hbreak : LineBreak rest next) :
    afterComment? (comment ++ rest) = some rest := by
  cases h with
  | none =>
    refine afterComment?_of_front fun cs hcs => ?_
    cases hbreak.ends '#' (by rw [List.nil_append] at hcs; rw [hcs]; rfl)
  | comment hcs => exact afterComment?_of_ends hcs hbreak.ends

/-- A line ends after spaces and a comment. -/
theorem nextLine?_eq_some_iff : nextLine? cs = some next ↔
    ∃ sp comment rest, Spaces sp ∧ CommentText comment ∧ LineBreak rest next ∧
      cs = sp ++ (comment ++ rest) := by
  constructor
  · intro h
    obtain ⟨sp, hsp, hcs⟩ := exists_spaces cs
    have hcomment : ∀ rest, afterComment? (skipSpace cs) = some rest →
        ∃ comment, CommentText comment ∧ skipSpace cs = comment ++ rest := by
      intro rest hrest
      by_cases hfront : ∃ cs', skipSpace cs = '#' :: cs'
      · obtain ⟨cs', hcs'⟩ := hfront
        rw [hcs'] at hrest ⊢
        obtain ⟨comment, hplain, rfl⟩ := exists_of_afterComment? hrest
        exact ⟨'#' :: comment, .comment hplain, rfl⟩
      · rw [afterComment?_of_front fun cs' hcs' => hfront ⟨cs', hcs'⟩] at hrest
        exact ⟨[], .none, Option.some.inj hrest⟩
    rw [nextLine?] at h
    split at h
    · next hafter =>
      obtain ⟨comment, hcomment, hrest⟩ := hcomment _ hafter
      obtain rfl := Option.some.inj h
      exact ⟨sp, comment, [], hsp, hcomment, .last, by rw [← hrest, ← hcs]⟩
    · next rest _ hafter =>
      obtain ⟨comment, hcomment, hrest⟩ := hcomment _ hafter
      obtain ⟨e, he, hrest'⟩ := afterLineEnd?_eq_some_iff.1 h
      exact ⟨sp, comment, e ++ next, hsp, hcomment, .lineEnd he next,
        by rw [← hrest', ← hrest, ← hcs]⟩
    · cases h
  · rintro ⟨sp, comment, rest, hsp, hcomment, hbreak, rfl⟩
    rw [nextLine?, skipSpace_closes (closes_comment hcomment hbreak.closes) hsp,
      hcomment.after hbreak]
    cases hbreak with
    | lineEnd he => cases he <;> rfl
    | last => rfl

theorem nextLine?_of_begins (h : Begins c) (cs : List Char) : nextLine? (c :: cs) = none := by
  have hcomment : afterComment? (c :: cs) = some (c :: cs) :=
    afterComment?_of_front fun _ heq => h.ne.1 (List.cons.inj heq).1
  rw [nextLine?, skipSpace_cons h.1, hcomment]
  exact afterLineEnd?_eq_none_iff.2 (h.noLineEnd cs)

end Comments

/-! ## Gaps -/

section Gaps
variable {c : Char} {cs e gap sp rest : List Char} {fuel : Nat}

theorem skipLines?_of_begins (h : Begins c) (cs : List Char) :
    skipLines? (fuel + 1) (c :: cs) = some (c :: cs) := by
  rw [skipLines?, skipSpace_cons h.1]
  split
  · next heq => exact absurd (List.cons.inj heq).1 h.ne.1
  · rw [afterLineEnd?_eq_none_iff.2 (h.noLineEnd cs)]

theorem skipLines?_spaces (hsp : Spaces sp) (fuel : Nat) (rest : List Char) :
    skipLines? fuel (sp ++ rest) = skipLines? fuel rest := by
  cases fuel with
  | zero => rfl
  | succ fuel => rw [skipLines?, skipLines?, skipSpace_append hsp]

theorem skipLines?_lineEnd (h : LineEnd e) (fuel : Nat) (rest : List Char) :
    skipLines? (fuel + 1) (e ++ rest) = skipLines? fuel rest := by
  cases h <;> rfl

theorem skipLines?_comment (hcs : ∀ c ∈ cs, IsPrintable c) (he : LineEnd e) (fuel : Nat)
    (rest : List Char) :
    skipLines? (fuel + 1) ('#' :: (cs ++ (e ++ rest))) = skipLines? fuel rest := by
  rw [skipLines?, skipSpace_cons (by decide)]
  simp only [afterComment?_of_ends hcs (he.ends rest), Option.bind_eq_bind, Option.bind_some]
  cases he <;> rfl

/-- Whatever stands between two parts is skipped. -/
theorem Gap.skip (h : Gap gap) (hc : Begins c) (hfuel : gap.length < fuel) (rest : List Char) :
    skipLines? fuel (gap ++ c :: rest) = some (c :: rest) := by
  induction h generalizing fuel with
  | nil =>
    obtain ⟨fuel, rfl⟩ := Nat.exists_eq_add_one.2 (Nat.zero_lt_of_lt hfuel)
    exact skipLines?_of_begins hc rest
  | @space d gap hd h ih =>
    rw [List.length_cons] at hfuel
    have hspace : Spaces [d] := fun x hx => List.mem_singleton.1 hx ▸ hd
    exact (skipLines?_spaces hspace fuel _).trans (ih (by omega))
  | @lineEnd e gap he h ih =>
    obtain ⟨d, ds, hds, -⟩ := he.front
    rw [List.length_append, hds, List.length_cons] at hfuel
    obtain ⟨fuel, rfl⟩ := Nat.exists_eq_add_one.2 (Nat.zero_lt_of_lt hfuel)
    rw [List.append_assoc, skipLines?_lineEnd he]
    exact ih (by omega)
  | @comment cs e gap hcs he h ih =>
    rw [List.length_cons, List.length_append, List.length_append] at hfuel
    obtain ⟨fuel, rfl⟩ := Nat.exists_eq_add_one.2 (Nat.zero_lt_of_lt hfuel)
    rw [List.cons_append, List.append_assoc, List.append_assoc, skipLines?_comment hcs he]
    exact ih (by omega)

theorem Gap.append (hsp : Spaces sp) (h : Gap gap) : Gap (sp ++ gap) := by
  induction sp with
  | nil => exact h
  | cons c sp ih =>
    obtain ⟨hc, hsp⟩ := List.forall_mem_cons.1 hsp
    exact .space hc (ih hsp)

theorem Gap.trans {gap' : List Char} (h : Gap gap) (h' : Gap gap') : Gap (gap ++ gap') := by
  induction h with
  | nil => exact h'
  | space hc h ih => exact .space hc ih
  | lineEnd he h ih =>
    rw [List.append_assoc]
    exact .lineEnd he ih
  | comment hcs he h ih =>
    rw [List.cons_append, List.append_assoc, List.append_assoc]
    exact .comment hcs he ih

/-- What is skipped in front of the next part is such a gap. -/
theorem exists_gap (h : skipLines? fuel cs = some rest) (hne : rest ≠ []) :
    ∃ gap, Gap gap ∧ cs = gap ++ rest := by
  induction fuel generalizing cs with
  | zero => cases h
  | succ fuel ih =>
    obtain ⟨sp, hsp, hcs⟩ := exists_spaces cs
    rw [hcs]
    suffices hgap : ∃ gap, Gap gap ∧ skipSpace cs = gap ++ rest by
      obtain ⟨gap, hgap, hskip⟩ := hgap
      exact ⟨sp ++ gap, hgap.append hsp, by rw [hskip, List.append_assoc]⟩
    rw [skipLines?] at h
    split at h
    · next cs' hfront =>
      obtain ⟨rest', hafter, hread⟩ := Option.bind_eq_some_iff.1 h
      obtain ⟨comment, hplain, rfl⟩ := exists_of_afterComment? hafter
      split at hread
      · exact absurd (Option.some.inj hread).symm hne
      · obtain ⟨next, hnext, hskip⟩ := Option.bind_eq_some_iff.1 hread
        obtain ⟨e, he, rfl⟩ := afterLineEnd?_eq_some_iff.1 hnext
        obtain ⟨gap, hgap, rfl⟩ := ih hskip
        exact ⟨_, .comment hplain he hgap, by rw [hfront]; simp⟩
    · split at h
      · next next hnext =>
        obtain ⟨e, he, hskip⟩ := afterLineEnd?_eq_some_iff.1 hnext
        obtain ⟨gap, hgap, rfl⟩ := ih h
        exact ⟨_, .lineEnd he hgap, by rw [hskip, List.append_assoc]⟩
      · exact ⟨[], .nil, Option.some.inj h⟩

/-- A gap after a key or a value begins with spaces, which are read with what they follow. -/
theorem Gap.split (h : Gap gap) (hc : Delimits c) (rest : List Char) :
    ∃ sp gap', gap = sp ++ gap' ∧ Spaces sp ∧ Gap gap' ∧ Closes (gap' ++ c :: rest) := by
  induction h with
  | nil => exact ⟨[], [], rfl, spaces_nil, .nil, closes_cons hc rest⟩
  | @space x gap hx h ih =>
    obtain ⟨sp, gap', rfl, hsp, hgap', hcloses⟩ := ih
    exact ⟨x :: sp, gap', rfl, List.forall_mem_cons.2 ⟨hx, hsp⟩, hgap', hcloses⟩
  | @lineEnd e gap he h ih =>
    obtain ⟨d, ds, rfl, hd⟩ := he.front
    refine ⟨[], _, rfl, spaces_nil, .lineEnd he h, closes_cons ?_ _⟩
    rcases hd with rfl | rfl <;> decide
  | comment hcs he h ih =>
    exact ⟨[], _, rfl, spaces_nil, .comment hcs he h, closes_cons (by decide) _⟩

end Gaps

/-! ## Keys -/

section Keys
variable {key : String} {path : List String} {c : Char} {cs text sp rest : List Char} {fuel : Nat}

theorem isKeyChar_iff : isKeyChar c = true ↔ IsKeyChar c := by
  simp [isKeyChar, IsKeyChar, or_assoc]

/-- A key begins with one of its characters or a quotation mark. -/
def FrontsKey (c : Char) : Prop := IsKeyChar c ∨ c = '"' ∨ c = '\''

instance (c : Char) : Decidable (FrontsKey c) := inferInstanceAs (Decidable (_ ∨ _))

theorem FrontsKey.begins (h : FrontsKey c) : Begins c := by
  refine ⟨?_, ?_⟩
  · rintro (rfl | rfl) <;> exact absurd h (by decide)
  · simp only [List.mem_cons, List.not_mem_nil, or_false]
    rintro (rfl | rfl | rfl) <;> exact absurd h (by decide)

theorem KeyText.front (h : KeyText key text) : ∃ c cs, text = c :: cs ∧ FrontsKey c := by
  cases h with
  | bare hne h =>
    obtain ⟨c, cs, rfl⟩ := List.exists_cons_of_ne_nil hne
    exact ⟨c, cs, rfl, .inl (h c List.mem_cons_self)⟩
  | basic h => exact ⟨_, _, rfl, .inr (.inl rfl)⟩
  | literal h => exact ⟨_, _, rfl, .inr (.inr rfl)⟩

theorem PathText.front (h : PathText path text) : ∃ c cs, text = c :: cs ∧ FrontsKey c := by
  cases h with
  | one h hsp =>
    obtain ⟨c, cs, rfl, hc⟩ := h.front
    exact ⟨c, _, rfl, hc⟩
  | cons h hsp hsp' hkeys =>
    obtain ⟨c, cs, rfl, hc⟩ := h.front
    exact ⟨c, _, rfl, hc⟩

theorem PathText.ne_nil (h : PathText path text) : path ≠ [] := by
  cases h <;> exact List.cons_ne_nil _ _

theorem PathText.append (h : PathText path text) (hsp : Spaces sp) :
    PathText path (text ++ sp) := by
  induction h with
  | one h hsp' =>
    rw [List.append_assoc]
    exact .one h (hsp'.append hsp)
  | cons h hsp' hsp'' hkeys ih =>
    simp only [List.append_assoc, List.cons_append]
    exact .cons h hsp' hsp'' ih

theorem KeyText.read (h : KeyText key text) (hrest : Ends isKeyChar rest) :
    readKey (text ++ rest) = some (key, rest) := by
  cases h with
  | bare hne h =>
    obtain ⟨htake, hdrop⟩ := run_iff.2 ⟨fun c hc => isKeyChar_iff.2 (h c hc), hrest, rfl⟩
    obtain ⟨c, cs, rfl⟩ := List.exists_cons_of_ne_nil hne
    have hc := h c List.mem_cons_self
    have hquote : ∀ q, ¬ IsKeyChar q → ∀ cs', c :: cs ++ rest ≠ q :: cs' := by
      intro q hq cs' heq
      exact hq ((List.cons.inj heq).1 ▸ hc)
    rw [readKey.eq_3 _ (fun _ => hquote _ (by decide) _) fun _ => hquote _ (by decide) _, htake,
      hdrop]
    rfl
  | basic h =>
    rw [List.cons_append, List.append_assoc, List.singleton_append, readKey, h.read]
    rfl
  | literal h =>
    rw [List.cons_append, List.append_assoc, List.singleton_append, readKey, h.read]
    rfl

theorem exists_key (h : readKey cs = some (key, rest)) :
    ∃ text, KeyText key text ∧ cs = text ++ rest := by
  unfold readKey at h
  split at h
  · next cs =>
    obtain ⟨⟨s, rest'⟩, hread, heq⟩ := Option.map_eq_some_iff.1 h
    obtain ⟨rfl, rfl⟩ := Prod.mk.inj heq
    obtain ⟨text, htext, rfl⟩ := takes_readBasic cs s rest' hread
    exact ⟨_, .basic htext, by simp⟩
  · next cs =>
    obtain ⟨⟨s, rest'⟩, hread, heq⟩ := Option.map_eq_some_iff.1 h
    obtain ⟨rfl, rfl⟩ := Prod.mk.inj heq
    obtain ⟨text, ⟨htext, rfl⟩, rfl⟩ := takes_readLiteral cs s rest' hread
    exact ⟨_, .literal htext, by simp⟩
  · obtain ⟨hne, h⟩ := Option.ite_none_left_eq_some.1 h
    obtain ⟨rfl, hrest⟩ := Prod.mk.inj (Option.some.inj h)
    obtain ⟨hrun, -, hcs⟩ := run_iff.1 ⟨rfl, hrest⟩
    exact ⟨_, .bare (mt List.isEmpty_iff.2 hne) fun c hc => isKeyChar_iff.1 (hrun c hc), hcs⟩

theorem readParts_key {sp' : List Char} (h : KeyText key text) (hsp : Spaces sp)
    (hrest : Ends isKeyChar (sp' ++ rest)) (fuel : Nat) :
    readParts (fuel + 1) (sp ++ (text ++ (sp' ++ rest))) =
      match skipSpace (sp' ++ rest) with
      | '.' :: rest => (readParts fuel rest).map fun (keys, rest) => (key :: keys, rest)
      | rest => some ([key], rest) := by
  obtain ⟨c, cs, hcs, hc⟩ := h.front
  have hread := h.read hrest
  have hskip : skipSpace (sp ++ (text ++ (sp' ++ rest))) = text ++ (sp' ++ rest) := by
    rw [skipSpace_append hsp, hcs, List.cons_append, skipSpace_cons hc.begins.1]
  rw [readParts, hskip, hread]
  simp only [Option.bind_eq_bind, Option.bind_some, Option.map_eq_bind]
  rfl

/-- A path is read with the white space after it, up to the mark that follows. -/
theorem PathText.read (h : PathText path text) (hfuel : path.length ≤ fuel) (hsp : Spaces sp)
    (hrest : Closes rest) : readParts fuel (sp ++ (text ++ rest)) = some (path, rest) := by
  induction h generalizing fuel sp with
  | @one key text sp' hkey hsp' =>
    obtain ⟨fuel, rfl⟩ := Nat.exists_eq_add_one.2 (Nat.zero_lt_of_lt hfuel)
    have hends : Ends isKeyChar (sp' ++ rest) :=
      hrest.ends hsp' ⟨by decide, by decide⟩ fun c hc => by
        rcases hc.cases with rfl | rfl | rfl | rfl | rfl | rfl | rfl <;> decide
    rw [List.append_assoc, readParts_key hkey hsp hends, skipSpace_closes hrest hsp']
    split
    · next rest' => exact absurd (hrest '.' rfl) (by decide)
    · rfl
  | @cons key keys text sp' sp'' texts hkey hsp' hsp'' hkeys ih =>
    rw [List.length_cons] at hfuel
    obtain ⟨fuel, rfl⟩ := Nat.exists_eq_add_one.2 (Nat.zero_lt_of_lt hfuel)
    have hends : Ends isKeyChar (sp' ++ '.' :: (sp'' ++ (texts ++ rest))) := by
      cases sp' with
      | nil => exact ends_cons (by decide) _
      | cons c sp' =>
        refine ends_cons ?_ _
        rcases hsp' c List.mem_cons_self with rfl | rfl <;> decide
    have htext : text ++ (sp' ++ '.' :: (sp'' ++ texts)) ++ rest =
        text ++ (sp' ++ '.' :: (sp'' ++ (texts ++ rest))) := by
      simp
    have hdot : skipSpace (sp' ++ '.' :: (sp'' ++ (texts ++ rest))) =
        '.' :: (sp'' ++ (texts ++ rest)) := by
      rw [skipSpace_append hsp', skipSpace_cons (by decide)]
    rw [htext, readParts_key hkey hsp hends, hdot]
    simp only [ih (Nat.le_of_succ_le_succ hfuel) hsp'', Option.map_some]

theorem PathText.reads (h : PathText path text) (hparts : path.length ≤ 80) (hsp : Spaces sp)
    (hrest : Closes rest) : readPath (sp ++ (text ++ rest)) = some (path, rest) :=
  h.read hparts hsp hrest

theorem exists_path (h : readParts fuel cs = some (path, rest)) :
    ∃ sp text, Spaces sp ∧ PathText path text ∧ path.length ≤ fuel ∧ cs = sp ++ (text ++ rest) := by
  induction fuel generalizing cs path with
  | zero => cases h
  | succ fuel ih =>
    rw [readParts] at h
    obtain ⟨⟨key, rest'⟩, hkey, h⟩ := Option.bind_eq_some_iff.1 h
    obtain ⟨sp, hsp, hcs⟩ := exists_spaces cs
    obtain ⟨text, htext, hskip⟩ := exists_key hkey
    obtain ⟨sp', hsp', hrest'⟩ := exists_spaces rest'
    dsimp only at h
    split at h
    · next rest'' hdot =>
      obtain ⟨⟨keys, rest₃⟩, hkeys, h⟩ := Option.bind_eq_some_iff.1 h
      obtain ⟨rfl, rfl⟩ := Prod.mk.inj (Option.some.inj h)
      obtain ⟨sp'', texts, hsp'', htexts, hlength, rfl⟩ := ih hkeys
      refine ⟨sp, _, hsp, .cons htext hsp' hsp'' htexts, Nat.succ_le_succ hlength, ?_⟩
      rw [hcs, hskip, hrest', hdot]
      simp
    · next hdot =>
      obtain ⟨rfl, rfl⟩ := Prod.mk.inj (Option.some.inj h)
      refine ⟨sp, _, hsp, .one htext hsp', Nat.succ_le_succ (Nat.zero_le _), ?_⟩
      rw [List.append_assoc, ← hrest', ← hskip, ← hcs]

end Keys

end TvmDebug.Toml
