import TvmDebug.Proofs.Text.Parts
import TvmDebug.Text.Blank
/-! # Lines and trimmed texts

`IsLines` says what the lines of a text are: each ends before a newline, or before a carriage return
and a newline, and after the last newline there is one more only if something stands there.
`IsTrimOf` says that a text is another one without the blanks at its ends. Every text has lines
(`exists_isLines`), and `trim` gives the one trimmed text there is (`isTrimOf_iff`).

`lines` leaves carriage returns at the ends of its lines and has an empty line after the last
newline; neither is seen once the lines are trimmed and the empty ones left out
(`IsLines.trimmed_eq`). -/
set_option autoImplicit false

namespace TvmDebug.Text

/-! ## Trimmed texts -/

/-- Blanks, perhaps none. -/
def Blanks (cs : List Char) : Prop := ∀ c ∈ cs, isBlank c = true

/-- The text `t` is `cs` without the blanks at its two ends. -/
structure IsTrimOf (t cs : List Char) : Prop where
  parts : ∃ before after, cs = before ++ (t ++ after) ∧ Blanks before ∧ Blanks after
  first : Ends isBlank t
  last : Ends isBlank t.reverse

section Trim
variable {t cs rest blanks : List Char}

theorem trimLeft_eq_iff :
    trimLeft cs = rest ↔ ∃ blanks, Blanks blanks ∧ Ends isBlank rest ∧ cs = blanks ++ rest := by
  constructor
  · intro h
    exact ⟨_, run_iff.1 ⟨rfl, h⟩⟩
  · rintro ⟨blanks, h⟩
    exact (run_iff.2 h).2

theorem trimLeft_blanks (h : Blanks blanks) (cs : List Char) :
    trimLeft (blanks ++ cs) = trimLeft cs :=
  List.dropWhile_append_of_pos h

theorem trimRight_blanks (h : Blanks blanks) (cs : List Char) :
    trimRight (cs ++ blanks) = trimRight cs := by
  have hreverse : Blanks blanks.reverse := by simpa [Blanks] using h
  rw [trimRight, trimRight, List.reverse_append, List.dropWhile_append_of_pos hreverse]

theorem trimRight_eq_self (h : Ends isBlank t.reverse) : trimRight t = t := by
  rw [trimRight, h.dropWhile_eq_self, List.reverse_reverse]

theorem trimRight_append (h : Ends isBlank cs.reverse) (rest : List Char) :
    trimRight (cs ++ rest) = cs ++ trimRight rest := by
  rw [trimRight, trimRight, List.reverse_append, List.dropWhile_append]
  split
  · next hempty =>
    rw [h.dropWhile_eq_self, List.reverse_reverse, List.isEmpty_iff.1 hempty]
    exact (List.append_nil cs).symm
  · rw [List.reverse_append, List.reverse_reverse]

theorem IsTrimOf.trim_eq (h : IsTrimOf t cs) : trim cs = t := by
  obtain ⟨⟨before, after, rfl, hbefore, hafter⟩, hfirst, hlast⟩ := h
  rw [trim, trimLeft_blanks hbefore]
  by_cases ht : t = []
  · subst ht
    have hleft := trimLeft_blanks hafter []
    rw [List.append_nil] at hleft
    rw [List.nil_append, hleft]
    rfl
  · rw [trimLeft, (hfirst.append ht after).dropWhile_eq_self, trimRight_blanks hafter,
      trimRight_eq_self hlast]

theorem isTrimOf_trim (cs : List Char) : IsTrimOf (trim cs) cs := by
  have hleft : cs = cs.takeWhile isBlank ++ trimLeft cs := List.takeWhile_append_dropWhile.symm
  have hright : trimLeft cs =
      trim cs ++ ((trimLeft cs).reverse.takeWhile isBlank).reverse := by
    rw [trim, trimRight, ← List.reverse_append, List.takeWhile_append_dropWhile,
      List.reverse_reverse]
  have hends : Ends isBlank (trimLeft cs) := ends_dropWhile isBlank cs
  refine ⟨⟨cs.takeWhile isBlank, _, by rw [← hright, ← hleft], ?_, ?_⟩, ?_, ?_⟩
  · intro c hc
    exact List.all_eq_true.1 List.all_takeWhile c hc
  · intro c hc
    exact List.all_eq_true.1 List.all_takeWhile c (List.mem_reverse.1 hc)
  · intro c hc
    refine hends c ?_
    rw [hright, List.head?_append, hc]
    rfl
  · rw [trim, trimRight, List.reverse_reverse]
    exact ends_dropWhile isBlank _

theorem isTrimOf_iff : IsTrimOf t cs ↔ trim cs = t :=
  ⟨IsTrimOf.trim_eq, fun h => h ▸ isTrimOf_trim cs⟩

theorem trim_trim (cs : List Char) : trim (trim cs) = trim cs := by
  obtain ⟨-, hfirst, hlast⟩ := isTrimOf_trim cs
  exact IsTrimOf.trim_eq
    ⟨⟨[], [], by simp, List.forall_mem_nil _, List.forall_mem_nil _⟩, hfirst, hlast⟩

theorem mem_of_mem_trim {c : Char} (h : c ∈ trim cs) : c ∈ cs := by
  obtain ⟨⟨before, after, hcs, -⟩, -⟩ := isTrimOf_trim cs
  rw [hcs]
  exact List.mem_append_right _ (List.mem_append_left _ h)

theorem trim_blanks_append (h : Blanks blanks) (cs : List Char) :
    trim (blanks ++ cs) = trim cs := by
  rw [trim, trimLeft_blanks h, trim]

theorem trim_append_blanks (h : Blanks blanks) (cs : List Char) :
    trim (cs ++ blanks) = trim cs := by
  obtain ⟨⟨before, after, hcs, hbefore, hafter⟩, hfirst, hlast⟩ := isTrimOf_trim cs
  refine IsTrimOf.trim_eq ⟨⟨before, after ++ blanks, ?_, hbefore, ?_⟩, hfirst, hlast⟩
  · rw [← List.append_assoc, ← List.append_assoc, List.append_assoc before, ← hcs]
  · intro c hc
    exact (List.mem_append.1 hc).elim (hafter c) (h c)

end Trim

/-! ## Lines -/

/-- The lines of a text, without the newlines, or carriage returns and newlines, that end them. -/
inductive IsLines : List Char → List (List Char) → Prop
  | nil : IsLines [] []
  | last {l : List Char} (hne : l ≠ []) (hl : '\n' ∉ l) : IsLines l [l]
  | newline {l rest : List Char} {ls : List (List Char)} (hl : '\n' ∉ l)
      (hlast : l.getLast? ≠ some '\r') (h : IsLines rest ls) : IsLines (l ++ '\n' :: rest) (l :: ls)
  | returned {l rest : List Char} {ls : List (List Char)} (hl : '\n' ∉ l)
      (h : IsLines rest ls) : IsLines (l ++ '\r' :: '\n' :: rest) (l :: ls)

section Lines
variable {l cs rest : List Char} {ls : List (List Char)}

theorem lines_ne_nil (cs : List Char) : lines cs ≠ [] := by
  cases cs with
  | nil => exact List.cons_ne_nil _ _
  | cons c cs =>
    rw [lines]
    split
    · exact List.cons_ne_nil _ _
    · split <;> exact List.cons_ne_nil _ _

theorem lines_cons {c : Char} (hc : c ≠ '\n') (cs : List Char) :
    ∃ l ls, lines cs = l :: ls ∧ lines (c :: cs) = (c :: l) :: ls := by
  obtain ⟨l, ls, hcs⟩ := List.exists_cons_of_ne_nil (lines_ne_nil cs)
  refine ⟨l, ls, hcs, ?_⟩
  rw [lines, if_neg hc, hcs]

theorem lines_newline (cs : List Char) : lines ('\n' :: cs) = [] :: lines cs := by
  rw [lines, if_pos rfl]

theorem lines_append (a b : List Char) : lines (a ++ '\n' :: b) = lines a ++ lines b := by
  induction a with
  | nil => exact lines_newline b
  | cons c a ih =>
    by_cases hc : c = '\n'
    · rw [hc, List.cons_append, lines_newline, lines_newline, ih, List.cons_append]
    · obtain ⟨l, ls, ha, hca⟩ := lines_cons hc a
      obtain ⟨l', ls', hab, hcab⟩ := lines_cons hc (a ++ '\n' :: b)
      rw [ih, ha, List.cons_append] at hab
      obtain ⟨rfl, rfl⟩ := List.cons.inj hab
      rw [List.cons_append, hcab, hca, List.cons_append]

/-- A character at the end of a text is at the end of its last line. -/
theorem lines_concat {c : Char} (hc : c ≠ '\n') (cs : List Char) :
    ∃ ls l, lines cs = ls ++ [l] ∧ lines (cs ++ [c]) = ls ++ [l ++ [c]] := by
  induction cs with
  | nil =>
    obtain ⟨l, ls, hnil, hsingle⟩ := lines_cons hc []
    obtain ⟨rfl, rfl⟩ := List.cons.inj hnil
    exact ⟨[], [], rfl, hsingle⟩
  | cons d cs ih =>
    obtain ⟨ls, l, hcs, hlast⟩ := ih
    by_cases hd : d = '\n'
    · refine ⟨[] :: ls, l, ?_, ?_⟩
      · rw [hd, lines_newline, hcs, List.cons_append]
      · rw [hd, List.cons_append, lines_newline, hlast, List.cons_append]
    · obtain ⟨k, ks, hk, hdk⟩ := lines_cons hd cs
      obtain ⟨k', ks', hk', hdk'⟩ := lines_cons hd (cs ++ [c])
      rw [hcs] at hk
      rw [hlast] at hk'
      rw [List.cons_append, hdk, hdk']
      cases ls with
      | nil =>
        obtain ⟨rfl, rfl⟩ := List.cons.inj hk
        obtain ⟨rfl, rfl⟩ := List.cons.inj hk'
        exact ⟨[], d :: l, rfl, rfl⟩
      | cons l₀ ls =>
        obtain ⟨rfl, rfl⟩ := List.cons.inj hk
        obtain ⟨rfl, rfl⟩ := List.cons.inj hk'
        exact ⟨(d :: l₀) :: ls, l, rfl, rfl⟩

theorem lines_eq_singleton (hl : '\n' ∉ l) : lines l = [l] := by
  induction l with
  | nil => rfl
  | cons c l ih =>
    obtain ⟨hc, hl⟩ := not_or.1 (mt List.mem_cons.2 hl)
    rw [lines, if_neg (Ne.symm hc), ih hl]

theorem lines_append_newline (hl : '\n' ∉ l) (rest : List Char) :
    lines (l ++ '\n' :: rest) = l :: lines rest := by
  rw [lines_append, lines_eq_singleton hl, List.singleton_append]

theorem exists_isLines (cs : List Char) : ∃ ls, IsLines cs ls := by
  by_cases hcs : '\n' ∈ cs
  · obtain ⟨l, rest, hsplit, hl⟩ := List.eq_append_cons_of_mem hcs
    have hshorter : rest.length < cs.length := by
      rw [hsplit, List.length_append, List.length_cons]
      omega
    obtain ⟨ls, hls⟩ := exists_isLines rest
    rw [hsplit]
    by_cases hlast : l.getLast? = some '\r'
    · obtain ⟨l', rfl⟩ := List.getLast?_eq_some_iff.1 hlast
      rw [← List.append_cons]
      exact ⟨l' :: ls, .returned (fun h => hl (List.mem_append_left _ h)) hls⟩
    · exact ⟨l :: ls, .newline hl hlast hls⟩
  · by_cases hne : cs = []
    · exact ⟨[], hne ▸ .nil⟩
    · exact ⟨[cs], .last hne hcs⟩
termination_by cs.length

theorem IsLines.trimmed_eq (h : IsLines cs ls) :
    ((lines cs).map trim).filter (fun t => !t.isEmpty) =
      (ls.map trim).filter fun t => !t.isEmpty := by
  induction h with
  | nil => rfl
  | last hne hl => rw [lines_eq_singleton hl]
  | newline hl hlast _ ih =>
    rw [lines_append_newline hl, List.map_cons, List.map_cons, List.filter_cons, List.filter_cons,
      ih]
  | @returned l rest ls hl _ ih =>
    have hreturn : '\n' ∉ l ++ ['\r'] := by simpa using hl
    have hblank : Blanks ['\r'] := List.forall_mem_singleton.2 rfl
    rw [List.append_cons, lines_append_newline hreturn, List.map_cons, List.map_cons,
      trim_append_blanks hblank, List.filter_cons, List.filter_cons, ih]

end Lines

end TvmDebug.Text
