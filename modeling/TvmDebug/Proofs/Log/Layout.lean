import Mathlib.Logic.Relation
import TvmDebug.Proofs.CellMap
import TvmDebug.Proofs.Log
/-! # The layout of a log does not count

A log is read chunk by chunk when the chunks end at line ends (`ofLog_append`), and blanks at the
ends of a line, newlines among them, are not seen (`trimmedLines_blanks_append`,
`trimmedLines_append_blanks`). `Edit` lists the changes of a log that are only changes of its
layout, and the change of letters of a hash; an edited log is read as before, with hashes in upper
case (`Edit.upper_eq`). -/
set_option autoImplicit false

namespace TvmDebug.LogLine

open Text

/-! ## Chunks and blanks -/

section Chunks
variable {a b blanks : List Char}

theorem trimmedLines_append (a b : List Char) :
    trimmedLines (a ++ '\n' :: b) = trimmedLines a ++ trimmedLines b := by
  rw [trimmedLines, lines_append, List.map_append, List.filter_append]
  rfl

theorem trimmedLines_of_line (h : '\n' ∉ a) (hne : trim a ≠ []) : trimmedLines a = [trim a] := by
  have hempty : (!(trim a).isEmpty) = true := by simpa using hne
  rw [trimmedLines, lines_eq_singleton h, List.map_singleton, List.filter_cons, if_pos hempty,
    List.filter_nil]

theorem trimmedLines_blank_cons {c : Char} (h : isBlank c = true) (cs : List Char) :
    trimmedLines (c :: cs) = trimmedLines cs := by
  by_cases hc : c = '\n'
  · exact hc ▸ trimmedLines_append [] cs
  · obtain ⟨l, ls, hcs, hccs⟩ := lines_cons hc cs
    have htrim : trim (c :: l) = trim l :=
      trim_blanks_append (List.forall_mem_singleton.2 h) l
    rw [trimmedLines, trimmedLines, hcs, hccs, List.map_cons, List.map_cons, htrim]

theorem trimmedLines_concat_blank {c : Char} (h : isBlank c = true) (cs : List Char) :
    trimmedLines (cs ++ [c]) = trimmedLines cs := by
  by_cases hc : c = '\n'
  · have hnil : trimmedLines [] = [] := rfl
    rw [hc, trimmedLines_append, hnil, List.append_nil]
  · obtain ⟨ls, l, hcs, hccs⟩ := lines_concat hc cs
    have htrim : trim (l ++ [c]) = trim l :=
      trim_append_blanks (List.forall_mem_singleton.2 h) l
    rw [trimmedLines, trimmedLines, hcs, hccs, List.map_append, List.map_append,
      List.map_singleton, List.map_singleton, htrim]

theorem trimmedLines_blanks_append (h : Blanks blanks) (cs : List Char) :
    trimmedLines (blanks ++ cs) = trimmedLines cs := by
  induction blanks with
  | nil => rfl
  | cons c blanks ih =>
    obtain ⟨hc, hblanks⟩ := List.forall_mem_cons.1 h
    rw [List.cons_append, trimmedLines_blank_cons hc, ih hblanks]

theorem trimmedLines_append_blanks (h : Blanks blanks) (cs : List Char) :
    trimmedLines (cs ++ blanks) = trimmedLines cs := by
  induction blanks generalizing cs with
  | nil => rw [List.append_nil]
  | cons c blanks ih =>
    obtain ⟨hc, hblanks⟩ := List.forall_mem_cons.1 h
    rw [List.append_cons, ih hblanks, trimmedLines_concat_blank hc]

/-- A log is read chunk by chunk. -/
theorem ofLog_append (a b : String) : ofLog (a ++ "\n" ++ b) = ofLog a ++ ofLog b := by
  have htext : (a ++ "\n" ++ b).toList = a.toList ++ '\n' :: b.toList := by
    rw [String.toList_append, String.toList_append, List.append_assoc]
    rfl
  rw [ofLog, htext, trimmedLines_append, List.map_append]
  rfl

end Chunks

/-! ## Where a line starts and ends -/

section Context
variable {a b : List Char}

/-- A line starts after the text. -/
inductive StartsLine : List Char → Prop
  | first : StartsLine []
  | next (a : List Char) : StartsLine (a ++ ['\n'])

/-- A line ends before the text. -/
inductive EndsLine : List Char → Prop
  | last : EndsLine []
  | before (b : List Char) : EndsLine ('\n' :: b)

theorem StartsLine.trimmedLines_append (h : StartsLine a) (b : List Char) :
    trimmedLines (a ++ b) = trimmedLines a ++ trimmedLines b := by
  cases h with
  | first => rfl
  | next a =>
    have hblank : Blanks ['\n'] := List.forall_mem_singleton.2 rfl
    rw [← List.append_cons, LogLine.trimmedLines_append, trimmedLines_append_blanks hblank]

theorem EndsLine.trimmedLines_append (h : EndsLine b) (a : List Char) :
    trimmedLines (a ++ b) = trimmedLines a ++ trimmedLines b := by
  cases h with
  | last =>
    have hnil : trimmedLines [] = [] := rfl
    rw [List.append_nil, hnil, List.append_nil]
  | before b =>
    have hblank : Blanks ['\n'] := List.forall_mem_singleton.2 rfl
    rw [LogLine.trimmedLines_append, ← trimmedLines_blanks_append hblank b, List.singleton_append]

end Context

/-! ## Letters of a hash -/

theorem isHexDigit_of_sameLetter {c d : Char} (h : SameLetter c d) (hc : isHexDigit c = true) :
    isHexDigit d = true := by
  rw [isHexDigit_iff] at hc ⊢
  rcases h with rfl | ⟨hge, hle, hd⟩ | ⟨hge, hle, hd⟩
  · exact hc
  · have hupper : 65 ≤ c.toNat ∧ c.toNat ≤ 90 := ⟨hge, hle⟩
    omega
  · have hupper : 65 ≤ d.toNat ∧ d.toNat ≤ 90 := ⟨hge, hle⟩
    omega

section Hash
variable {indent before hash hash' tail : List Char} {offset : UInt32}

/-- The hexadecimal digits of a hash, of which there are some. -/
def IsHash (hash : List Char) : Prop := hash ≠ [] ∧ ∀ c ∈ hash, isHexDigit c = true

theorem IsHash.recase (h : IsHash hash) (hcase : List.Forall₂ SameLetter hash hash') :
    IsHash hash' := by
  obtain ⟨hne, hdigits⟩ := h
  refine ⟨?_, ?_⟩
  · rintro rfl
    exact hne (List.forall₂_nil_right_iff.1 hcase)
  · clear hne
    induction hcase with
    | nil => exact List.forall_mem_nil _
    | cons hletter _ ih =>
      obtain ⟨hc, hcs⟩ := List.forall_mem_cons.1 hdigits
      exact List.forall_mem_cons.2 ⟨isHexDigit_of_sameLetter hletter hc, ih hcs⟩

theorem IsHash.ends (h : IsHash hash) (tail : List Char) : Ends isBlank (hash ++ tail) :=
  ends_append (fun _ => isBlank_of_isHexDigit) h.1 h.2 tail

theorem IsHash.trimLeft_eq (h : IsHash hash) (hbefore : Blanks before) (tail : List Char) :
    trimLeft (before ++ (hash ++ tail)) = hash ++ tail :=
  trimLeft_eq_iff.2 ⟨before, hbefore, h.ends tail, rfl⟩

theorem isHash_of_location? {t : List Char}
    (h : location? t = some (.location (String.ofList hash) offset)) : IsHash hash := by
  obtain ⟨r₁, _, hne, _, _, _, _, _, _, _, _, hline⟩ := location?_eq_some_iff.1 h
  obtain ⟨hhash, -⟩ := LogLine.location.inj hline
  rw [← String.ofList_inj.1 hhash]
  exact ⟨hne, (run_iff.1 ⟨rfl, rfl⟩).1⟩

/-- What a location line tells besides its hash does not depend on the letters of the hash. -/
theorem location?_recase (hbefore : Blanks before) (hcase : List.Forall₂ SameLetter hash hash')
    (h : location? ("code cell hash:".toList ++ (before ++ (hash ++ tail))) =
      some (.location (String.ofList hash) offset)) :
    location? ("code cell hash:".toList ++ (before ++ (hash' ++ tail))) =
      some (.location (String.ofList hash') offset) := by
  have hhash := isHash_of_location? h
  have hhash' := hhash.recase hcase
  obtain ⟨r₁, hlit, -, r₂, hr₂, r₃, hoffset, n, hn, offset', hword, hline⟩ :=
    location?_eq_some_iff.1 h
  obtain rfl := List.append_cancel_left (dropLiteral?_eq_some_iff.1 hlit)
  obtain ⟨htake, rfl⟩ := LogLine.location.inj hline
  rw [hhash.trimLeft_eq hbefore, String.ofList_inj] at htake
  rw [hhash.trimLeft_eq hbefore] at hr₂
  obtain ⟨-, hends, hsplit⟩ := run_iff.1 ⟨htake, rfl⟩
  have hdrop : (hash ++ tail).dropWhile isHexDigit = tail := (List.append_cancel_left hsplit).symm
  rw [hdrop] at hends hr₂
  obtain ⟨htake', hdrop'⟩ := run_iff.2 ⟨hhash'.2, hends, rfl⟩
  refine location?_eq_some_iff.2 ⟨_, dropLiteral?_eq_some_iff.2 rfl, ?_⟩
  rw [hhash'.trimLeft_eq hbefore, htake', hdrop']
  exact ⟨hhash'.1, r₂, hr₂, r₃, hoffset, n, hn, offset', hword, rfl⟩

theorem ofLine_eq_location_iff {t : List Char} {hash : String} :
    ofLine t = .location hash offset ↔ location? t = some (.location hash offset) := by
  constructor
  · intro h
    cases ofLine_eq_iff.1 h with
    | spelled hspells => exact location?_of_spells hspells
  · intro h
    rw [ofLine, h]
    rfl

/-- The line of a location, and the same line with letters of its hash in the other case. -/
inductive Recases : List Char → List Char → Prop
  | hash {indent before hash hash' tail : List Char} {offset : UInt32} (hindent : Blanks indent)
      (hbefore : Blanks before) (hcase : List.Forall₂ SameLetter hash hash')
      (hline : ofLine (trim (indent ++ ("code cell hash:".toList ++ (before ++ (hash ++ tail))))) =
        .location (String.ofList hash) offset) :
      Recases (indent ++ ("code cell hash:".toList ++ (before ++ (hash ++ tail))))
        (indent ++ ("code cell hash:".toList ++ (before ++ (hash' ++ tail))))

theorem IsHash.trim_eq (h : IsHash hash) (hindent : Blanks indent) (before tail : List Char) :
    trim (indent ++ ("code cell hash:".toList ++ (before ++ (hash ++ tail)))) =
      "code cell hash:".toList ++ (before ++ (hash ++ trimRight tail)) := by
  have hlast : Ends isBlank ("code cell hash:".toList ++ (before ++ hash)).reverse := by
    rw [List.reverse_append, List.reverse_append, List.append_assoc]
    refine ends_append (fun _ => isBlank_of_isHexDigit) (mt List.reverse_eq_nil_iff.1 h.1) ?_ _
    exact fun c hc => h.2 c (List.mem_reverse.1 hc)
  have hfirst : trimLeft ("code cell hash:".toList ++ (before ++ (hash ++ tail))) =
      "code cell hash:".toList ++ (before ++ (hash ++ tail)) :=
    (ends_cons (by decide) _ : Ends isBlank (_ :: _)).dropWhile_eq_self
  rw [trim_blanks_append hindent, trim, hfirst, ← List.append_assoc before,
    ← List.append_assoc _ (before ++ hash), trimRight_append hlast, List.append_assoc,
    List.append_assoc]

/-- The line with its hash in upper case. -/
def upper : LogLine → LogLine
  | .location hash offset => .location hash.toUpper offset
  | line => line

theorem upper_location_eq (h : List.Forall₂ SameLetter hash hash') :
    (location (String.ofList hash) offset).upper =
      (location (String.ofList hash') offset).upper := by
  have hupper := CodeLocation.upper_eq_upper_iff.2
    (show CodeLocation.Same ⟨String.ofList hash, offset⟩ ⟨String.ofList hash', offset⟩ from
      ⟨by rwa [String.toList_ofList, String.toList_ofList], rfl⟩)
  exact congrArg (location · offset) (CodeLocation.mk.inj hupper).1

end Hash

section Recase
variable {l l' : List Char}

theorem Recases.newline_notMem (h : Recases l l') (hl : '\n' ∉ l) : '\n' ∉ l' := by
  cases h with
  | hash hindent hbefore hcase hline =>
    have hhash := (isHash_of_location? (ofLine_eq_location_iff.1 hline)).recase hcase
    have hnewline : '\n' ∉ _ := fun hmem => absurd (hhash.2 '\n' hmem) (by decide)
    simp only [List.mem_append, not_or] at hl ⊢
    exact ⟨hl.1, hl.2.1, hl.2.2.1, hnewline, hl.2.2.2.2⟩

/-- Both lines tell the same up to the letters of the hash. -/
theorem Recases.reads (h : Recases l l') (hl : '\n' ∉ l) :
    (trimmedLines l).map (fun t => (ofLine t).upper) =
      (trimmedLines l').map fun t => (ofLine t).upper := by
  have hl' := h.newline_notMem hl
  cases h with
  | @hash indent before hash hash' tail offset hindent hbefore hcase hline =>
    have hhash := isHash_of_location? (ofLine_eq_location_iff.1 hline)
    have htrim := hhash.trim_eq hindent before tail
    have htrim' := (hhash.recase hcase).trim_eq hindent before tail
    have hread := ofLine_eq_location_iff.1 hline
    rw [htrim] at hread
    have hread' := ofLine_eq_location_iff.2 (location?_recase hbefore hcase hread)
    have hne : trim (indent ++ ("code cell hash:".toList ++ (before ++ (hash ++ tail)))) ≠ [] := by
      rw [htrim]
      exact List.cons_ne_nil _ _
    have hne' :
        trim (indent ++ ("code cell hash:".toList ++ (before ++ (hash' ++ tail)))) ≠ [] := by
      rw [htrim']
      exact List.cons_ne_nil _ _
    rw [trimmedLines_of_line hl hne, trimmedLines_of_line hl' hne', List.map_singleton,
      List.map_singleton, hline, htrim', hread', upper_location_eq hcase]

end Recase

/-! ## Changes of the layout -/

/-- One change of a log that does not change what it tells. -/
inductive Edit : List Char → List Char → Prop
  /-- a newline becomes a carriage return and a newline -/
  | returned (a b : List Char) : Edit (a ++ '\n' :: b) (a ++ '\r' :: '\n' :: b)
  /-- a blank line comes before a line -/
  | blankLine {a blanks : List Char} (ha : StartsLine a) (hblanks : Blanks blanks)
      (b : List Char) : Edit (a ++ b) (a ++ (blanks ++ '\n' :: b))
  /-- a blank line comes after the last line -/
  | lastBlankLine (a : List Char) {blanks : List Char} (hblanks : Blanks blanks) :
      Edit a (a ++ '\n' :: blanks)
  /-- blanks come before the text of a line -/
  | leading {a blanks : List Char} (ha : StartsLine a) (hblanks : Blanks blanks) (b : List Char) :
      Edit (a ++ b) (a ++ (blanks ++ b))
  /-- blanks come after the text of a line -/
  | trailing (a : List Char) {b blanks : List Char} (hb : EndsLine b) (hblanks : Blanks blanks) :
      Edit (a ++ b) (a ++ (blanks ++ b))
  /-- letters of a hash change in case -/
  | recased {a l l' b : List Char} (ha : StartsLine a) (hb : EndsLine b) (hl : '\n' ∉ l)
      (h : Recases l l') : Edit (a ++ (l ++ b)) (a ++ (l' ++ b))

theorem Edit.upper_eq {cs cs' : List Char} (h : Edit cs cs') :
    (trimmedLines cs).map (fun t => (ofLine t).upper) =
      (trimmedLines cs').map fun t => (ofLine t).upper := by
  cases h with
  | returned a b =>
    have hreturn : trimmedLines (a ++ ['\r']) = trimmedLines a :=
      trimmedLines_concat_blank (by decide) a
    rw [List.append_cons a '\r', trimmedLines_append, trimmedLines_append, hreturn]
  | blankLine ha hblanks b =>
    have hnewline : trimmedLines ('\n' :: b) = trimmedLines b :=
      trimmedLines_blank_cons (by decide) b
    rw [ha.trimmedLines_append, ha.trimmedLines_append, trimmedLines_blanks_append hblanks,
      hnewline]
  | lastBlankLine a hblanks =>
    have hblank : Blanks ('\n' :: _) := List.forall_mem_cons.2 ⟨by decide, hblanks⟩
    rw [trimmedLines_append_blanks hblank]
  | leading ha hblanks b =>
    rw [ha.trimmedLines_append, ha.trimmedLines_append, trimmedLines_blanks_append hblanks]
  | trailing a hb hblanks =>
    rw [← List.append_assoc, hb.trimmedLines_append, hb.trimmedLines_append,
      trimmedLines_append_blanks hblanks]
  | recased ha hb hl h =>
    rw [ha.trimmedLines_append, ha.trimmedLines_append, hb.trimmedLines_append,
      hb.trimmedLines_append, List.map_append, List.map_append, List.map_append, List.map_append,
      h.reads hl]

/-- Any number of changes, made or undone, leave what a log tells. -/
theorem upper_eq_of_edits {cs cs' : List Char} (h : Relation.EqvGen Edit cs cs') :
    (trimmedLines cs).map (fun t => (ofLine t).upper) =
      (trimmedLines cs').map fun t => (ofLine t).upper := by
  induction h with
  | rel _ _ h => exact h.upper_eq
  | refl => rfl
  | symm _ _ _ ih => exact ih.symm
  | trans _ _ _ _ _ ih ih' => exact ih.trans ih'

end TvmDebug.LogLine
