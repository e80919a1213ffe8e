import TvmDebug.Proofs.Toml.Documents
import TvmDebug.Toml.Writer
/-! # What is written are documents

A string is written in one of the forms of the grammar, whichever the writer takes
(`stringText_quoteChars`). Strings, numbers and lists of strings are values as they are written
(`valueText_quote`, `valueText_digits`, `valueText_writeList`), and headers and keys with such
values are lines of a document (`written_header`, `written_line`). -/
set_option autoImplicit false

namespace TvmDebug.Toml

open Text

/-! ## Strings -/

section Strings
variable {cs : List Char}

theorem isPrintable_of_mustEscape {c : Char} (h : mustEscape c = false) (hline : c ≠ '\n') :
    IsPrintable c := by
  by_cases htab : c = '\t'
  · exact .inl htab
  · have hline' : (c != '\n') = true := bne_iff_ne.2 hline
    have htab' : (c != '\t') = true := bne_iff_ne.2 htab
    simp only [mustEscape, htab', hline', Bool.and_true, Bool.or_eq_false_iff,
      decide_eq_false_iff_not, beq_eq_false_iff_ne] at h
    exact .inr ⟨by omega, h.2⟩

theorem le_longestRunFrom (q : Char) (run : Nat) (cs : List Char) :
    run ≤ longestRunFrom q run cs := by
  induction cs generalizing run with
  | nil => exact Nat.le_refl run
  | cons c cs ih =>
    rw [longestRunFrom]
    split
    · exact Nat.le_of_succ_le (ih (run + 1))
    · exact Nat.le_max_left run _

theorem notMem_of_longestRun {q : Char} {cs : List Char} (h : longestRun q cs = 0) : q ∉ cs := by
  rw [longestRun] at h
  induction cs with
  | nil => exact List.not_mem_nil
  | cons c cs ih =>
    rw [longestRunFrom] at h
    split at h
    · have hle := le_longestRunFrom q (0 + 1) cs
      omega
    · next hc =>
      rw [Nat.zero_max] at h
      exact List.not_mem_cons_of_ne_of_not_mem (Ne.symm hc) (ih h)

theorem formOf_literal (h : formOf cs = .literal) :
    (∀ c ∈ cs, mustEscape c = false) ∧ '\n' ∉ cs ∧ longestRun '\'' cs = 0 := by
  grind [formOf]

theorem formOf_literalLines (h : formOf cs = .literalLines) :
    (∀ c ∈ cs, mustEscape c = false) ∧ longestRun '\'' cs ≤ 2 := by
  grind [formOf]

theorem hexNumber?_code :
    ∀ n < 0x80, hexNumber? ['0', '0', hexDigit (n / 16), hexDigit (n % 16)] = some n := by
  decide

theorem charText_escaped {c : Char} (hquote : c ≠ '"') : CharText c ((escaped? c).getD [c]) := by
  unfold escaped?
  split
  · exact .letter (by subst c; constructor)
  split
  · exact .letter (by subst c; constructor)
  split
  · exact .letter (by subst c; constructor)
  split
  · exact .letter (by subst c; constructor)
  split
  · exact .letter (by subst c; constructor)
  split
  · next h =>
    rw [Bool.or_eq_true, decide_eq_true_eq, beq_iff_eq] at h
    refine charText_code _ (.tail _ (.head _)) ?_
    rw [ofHex?, hexNumber?_code c.toNat (by omega)]
    exact charOfCode?_toNat c
  · next hslash h =>
    rw [Bool.or_eq_true, decide_eq_true_eq, beq_iff_eq] at h
    exact .itself (.inr ⟨by omega, by omega⟩) hquote hslash

theorem basicText_spec (cs : List Char) : BasicText cs (basicText cs) := by
  induction cs with
  | nil => exact .nil
  | cons c cs ih =>
    by_cases hc : c = '"'
    · subst hc
      exact .cons (.letter .quote) ih
    · rw [basicText, if_neg hc]
      exact .cons (charText_escaped hc) ih

/-- A third quote in a row is written as an escape. -/
theorem basicLinesText_spec (run : Nat) (hrun : run ≤ 2) (cs : List Char) :
    BasicLinesText run cs (basicLinesText run cs) := by
  induction cs generalizing run with
  | nil => exact .nil run
  | cons c cs ih =>
    rw [basicLinesText]
    split
    · next hquote =>
      subst hquote
      split
      · exact .char (.letter .quote) (ih 0 (Nat.zero_le 2))
      · exact .quote (by omega) (ih (run + 1) (by omega))
    · next hquote =>
      split
      · next hline =>
        subst hline
        exact .lineEnd .newline (ih 0 (Nat.zero_le 2))
      · exact .char (charText_escaped hquote) (ih 0 (Nat.zero_le 2))

theorem literalLinesText_of_run (hcs : ∀ c ∈ cs, IsPrintable c ∨ c = '\n') (run : Nat)
    (hrun : longestRunFrom '\'' run cs ≤ 2) : LiteralLinesText run cs := by
  induction cs generalizing run with
  | nil => exact .nil run
  | cons c cs ih =>
    obtain ⟨hc, htail⟩ := List.forall_mem_cons.1 hcs
    rw [longestRunFrom] at hrun
    split at hrun
    · next hquote =>
      subst hquote
      have hle := le_longestRunFrom '\'' (run + 1) cs
      exact .quote (by omega) (ih htail (run + 1) hrun)
    · next hquote =>
      have htail := ih htail 0 (Nat.le_trans (Nat.le_max_right run _) hrun)
      rcases hc with hc | rfl
      · exact .char hc hquote htail
      · exact .lineEnd .newline htail

theorem opened_opening {body : List Char}
    (h : '\n' ∉ cs → NoLineEnd body) : Opened (opening cs ++ body) body := by
  by_cases hline : '\n' ∈ cs
  · have hopening : opening cs = ['\n'] := if_pos (List.contains_iff_mem.2 hline)
    rw [hopening]
    exact .lineEnd .newline body
  · have hopening : opening cs = [] := if_neg (mt List.contains_iff_mem.1 hline)
    rw [hopening]
    exact .none (h hline)

theorem noLineEnd_basicLinesText (hline : '\n' ∉ cs) : NoLineEnd (basicLinesText 0 cs) := by
  cases cs with
  | nil => exact noLineEnd_nil
  | cons c cs =>
    have hc : c ≠ '\n' := fun hc => hline (hc ▸ List.mem_cons_self)
    rw [basicLinesText]
    split
    · exact noLineEnd_of_front (by decide) (by decide) _
    · next hquote =>
      obtain ⟨d, ds, hds, -, hd⟩ := (charText_escaped hquote).front
      obtain ⟨hdline, hdreturn⟩ := hd.ne_lineEnd
      rw [hds]
      exact noLineEnd_of_front hdline hdreturn _

/-- The writer writes a string in a form of the grammar. -/
theorem stringText_quoteChars (cs : List Char) : StringText cs (quoteChars cs) := by
  unfold quoteChars
  split
  · exact .basic (basicText_spec cs)
  · next hform =>
    obtain ⟨hplain, hline, hrun⟩ := formOf_literal hform
    have hquote := notMem_of_longestRun hrun
    exact .literal fun c hc =>
      ⟨isPrintable_of_mustEscape (hplain c hc) fun h => hline (h ▸ hc), fun h => hquote (h ▸ hc)⟩
  · exact .basicLines (opened_opening noLineEnd_basicLinesText)
      (basicLinesText_spec 0 (Nat.zero_le 2) cs)
  · next hform =>
    obtain ⟨hplain, hrun⟩ := formOf_literalLines hform
    have hchars : ∀ c ∈ cs, IsPrintable c ∨ c = '\n' := fun c hc =>
      (Decidable.em (c = '\n')).symm.imp_left (isPrintable_of_mustEscape (hplain c hc))
    refine .literalLines (opened_opening fun hline => ?_) (literalLinesText_of_run hchars 0 hrun)
    cases cs with
    | nil => exact noLineEnd_nil
    | cons c cs =>
      have hc : c ≠ '\n' := fun hc => hline (hc ▸ List.mem_cons_self)
      obtain ⟨hdline, hdreturn⟩ := ((hchars c List.mem_cons_self).resolve_right hc).ne_lineEnd
      exact noLineEnd_of_front hdline hdreturn _

end Strings

theorem valueText_quote (depth : Nat) (s : String) :
    ValueText depth (quoteChars s.toList) (.string s) := by
  have htext := ValueText.string depth (stringText_quoteChars s.toList)
  rwa [String.ofList_toList] at htext

/-! ## Numbers -/

section Numbers
variable {text : List Char} {ds : List Nat} {n : Nat}

theorem digits_of_forall₂ {base : Nat} (hne : text ≠ []) (h : List.Forall₂ (IsDigit base) text ds) :
    Digits base text ds := by
  induction h with
  | nil => exact absurd rfl hne
  | @cons c d text ds hc h ih =>
    cases text with
    | nil =>
      cases h
      exact .one hc
    | cons c' text => exact .cons hc (ih (List.cons_ne_nil _ _))

theorem valueText_digits (depth : Nat) (hn : n < 2 ^ 128) :
    ValueText depth (digits n) (.integer (some n)) := by
  have hwrites := writesNat_digits n
  have hdigits : Digits 10 (digits n) ((digits n).map hexValue) :=
    digits_of_forall₂ hwrites.ne_nil (digitKind_ten.forall₂_iff.2 ⟨hwrites.digits, rfl⟩)
  have hzero : NoZero ((digits n).map hexValue) := by
    rw [hdigits.noZero_iff]
    rintro ⟨hfirst, hlength⟩
    obtain ⟨cs, hcs⟩ := List.head?_eq_some_iff.1 hfirst
    rw [hcs, eq_nil_of_digits hcs] at hlength
    exact absurd hlength (by decide)
  have hnumber : number 10 ((digits n).map hexValue) = n :=
    (ofDigitChars_eq hwrites.digits).symm.trans hwrites.value
  have hknown : known? n = some (n : Int) := if_pos (by omega)
  have htext : IntegerText (digits n) (number 10 ((digits n).map hexValue)) :=
    .decimal .none hdigits hzero
  rw [hnumber] at htext
  rw [← hknown]
  exact .scalar depth (.integer htext)

end Numbers

/-! ## Lists -/

section Lists
variable {depth : Nat}

/-- The items of a list that is written over several lines. -/
def itemLines (ss : List String) : List Char :=
  ss.flatMap fun s => "    ".toList ++ (quoteChars s.toList ++ ",\n".toList)

theorem writeList_lines (s s' : String) (ss : List String) :
    (writeList (s :: s' :: ss)).toList = '[' :: '\n' :: (itemLines (s :: s' :: ss) ++ [']']) := by
  simp [writeList, itemLines, quote, List.flatMap_map]

theorem itemsText_itemLines (depth : Nat) (ss : List String) :
    ItemsText depth ('\n' :: (itemLines ss ++ [']'])) (ss.map .string) := by
  induction ss with
  | nil => exact .nil depth (.lineEnd .newline .nil)
  | cons s ss ih =>
    have hindent : Gap "\n    ".toList :=
      .lineEnd .newline (.append (by decide : Spaces "    ".toList) .nil)
    have htext : '\n' :: (itemLines (s :: ss) ++ [']']) = "\n    ".toList ++
        (quoteChars s.toList ++ ([] ++ ',' :: '\n' :: (itemLines ss ++ [']']))) := by
      simp [itemLines]
    rw [htext]
    exact .cons hindent (valueText_quote depth s) .nil ih

theorem valueText_writeList (depth : Nat) (ss : List String) :
    ValueText (depth + 1) (writeList ss).toList (.array (ss.map .string)) := by
  match ss with
  | [] => exact .array (.nil depth .nil)
  | [s] =>
    have htext : (writeList [s]).toList =
        '[' :: ([] ++ (quoteChars s.toList ++ ([] ++ [']']))) := by
      simp [writeList, quote]
    rw [htext]
    exact .array (.last .nil (valueText_quote depth s) .nil)
  | s :: s' :: ss =>
    rw [writeList_lines]
    exact .array (itemsText_itemLines depth (s :: s' :: ss))

end Lists

/-! ## Lines -/

/-- A key that needs no quotes. -/
structure IsBareKey (key : String) : Prop where
  ne_empty : key.toList ≠ []
  chars : ∀ c ∈ key.toList, IsKeyChar c

section Lines
variable {key value : String} {v : Toml} {items : List Item} {text : List Char}

theorem IsBareKey.keyText (h : IsBareKey key) : KeyText key key.toList := by
  have htext := KeyText.bare h.ne_empty h.chars
  rwa [String.ofList_toList] at htext

/-- The line that names a table. -/
def header (key : String) : List Char := '[' :: (key.toList ++ [']', '\n'])

theorem written_header (hkey : IsBareKey key) (h : Written items text) :
    Written (.table [key] :: items) (header key ++ text) := by
  have hpath : PathText [key] (key.toList ++ []) := .one hkey.keyText spaces_nil
  have hitem := ItemText.table spaces_nil hpath (by simp)
  have hwritten := Written.item spaces_nil hitem spaces_nil .none (.lineEnd .newline text) h
  simpa [header] using hwritten

theorem written_line (hkey : IsBareKey key) (hv : ValueText 80 value.toList v)
    (h : Written items text) :
    Written (.entry [key] v :: items) ((line key value).toList ++ text) := by
  have hspace : Spaces [' '] := by decide
  have hitem := ItemText.entry (.one hkey.keyText hspace) (by simp) hspace hv
  have hwritten := Written.item spaces_nil hitem spaces_nil .none (.lineEnd .newline text) h
  simpa [line] using hwritten

/-- One line is a document of its own. -/
theorem isDocument_line (hkey : IsBareKey key) (hv : ValueText 80 value.toList v) :
    IsDocument (line key value) [(key, v)] := by
  have hwritten := written_line hkey hv .nil
  rw [List.append_nil] at hwritten
  have hdefines : DefinesTable [.inside false key (.value v)] [(key, v)] := by
    refine .intro (List.forall_mem_singleton.2 rfl) rfl fun key' v' hmem => ?_
    obtain ⟨rfl, rfl⟩ := Prod.mk.inj (List.mem_singleton.1 hmem)
    have hunder : [Definition.inside false key' (.value v')].filterMap (Definition.under? key') =
        [.value v'] := by
      simp [Definition.under?]
    rw [hunder]
    exact .value v'
  exact ⟨[], _, _, .inl rfl, rfl, hwritten, hdefines⟩

theorem written_blank (h : Written items text) : Written items ('\n' :: text) :=
  .blank spaces_nil .none (.lineEnd .newline text) h

end Lines

end TvmDebug.Toml
