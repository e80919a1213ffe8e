import TvmDebug.Proofs.Toml.Values
/-! # Documents are read as they are written

A document is read line by line: each header and each key with its value is read and added to the
tables of those before (`ItemText.read`, `exists_item`), and blank lines are left out. What the
items of a document add is what they define (`Document.foldlM_add`), so that a text is read exactly
if it is a document, and to the tables that it defines (`ofText?_eq_some_iff`). -/
set_option autoImplicit false

namespace TvmDebug.Toml

open Text

/-! ## What an item adds -/

def Item.path : Item → List String
  | table path => path
  | element path => path
  | entry path _ => path

namespace Document

def add (d : Document) : Item → Option Document
  | .table path => d.openTable path
  | .element path => d.pushTable path
  | .entry path v => d.put path v

section Add
variable {d : Document} {path : List String} {items : List Item}

theorem openTable_eq (d : Document) (path : List String) :
    d.openTable path = (Definition.define (.along false path .header) d.root).map (⟨·, path⟩) := by
  obtain rfl | ⟨front, k, hpath⟩ := List.eq_nil_or_concat path
  · rfl
  · rw [hpath, List.concat_eq_append, openTable, List.getLast?_concat, List.dropLast_concat,
      Option.bind_eq_bind, Option.bind_some, Entries.openTable_eq]
    exact (Option.map_eq_bind ..).symm

theorem pushTable_eq (d : Document) (path : List String) :
    d.pushTable path = (Definition.define (.along false path .element) d.root).map (⟨·, path⟩) := by
  obtain rfl | ⟨front, k, hpath⟩ := List.eq_nil_or_concat path
  · rfl
  · rw [hpath, List.concat_eq_append, pushTable, List.getLast?_concat, List.dropLast_concat,
      Option.bind_eq_bind, Option.bind_some, Entries.pushTable_eq]
    exact (Option.map_eq_bind ..).symm

theorem put_eq (hpath : path ≠ []) (d : Document) (v : Toml) :
    d.put path v = (Definition.define (.along false d.here (.ofEntry path v)) d.root).map
      fun root => { d with root := root } := by
  obtain ⟨k, path, rfl⟩ := List.exists_cons_of_ne_nil hpath
  have hput : Entries.putDotted v (k :: path) = Definition.define (.ofEntry (k :: path) v) :=
    funext (Entries.putDotted_eq v (k :: path))
  rw [put, hput, Definition.ofEntry, Entries.within_eq]

/-- The tables that items make are those that they define. -/
theorem foldlM_add (h : ∀ item ∈ items, item.path ≠ []) (d : Document) :
    (items.foldlM add d).map root =
      (definitions d.here items).foldlM (fun es d => Definition.define d es) d.root := by
  induction items generalizing d with
  | nil => rfl
  | cons item items ih =>
    obtain ⟨hitem, hitems⟩ := List.forall_mem_cons.1 h
    have hstep : ∀ (o : Option Entries) (here : List String),
        ((o.map (⟨·, here⟩ : Entries → Document)).bind fun d => items.foldlM add d).map root =
          o.bind fun root => (definitions here items).foldlM
            (fun es d => Definition.define d es) root := by
      intro o here
      cases o with
      | none => rfl
      | some root => exact ih hitems ⟨root, here⟩
    rw [List.foldlM_cons]
    cases item with
    | table path =>
      rw [add, openTable_eq]
      exact hstep _ path
    | element path =>
      rw [add, pushTable_eq]
      exact hstep _ path
    | entry path v =>
      have hpath : path ≠ [] := hitem
      rw [add, put_eq hpath]
      exact hstep _ d.here

end Add

end Document

/-! ## Items -/

section Items
variable {fuel : Nat} {d d' : Document} {item : Item} {path : List String}
  {cs sp line text rest : List Char}

theorem ItemText.front (h : ItemText item line) :
    ∃ c cs, line = c :: cs ∧ Begins c ∧ c ≠ '\uFEFF' := by
  cases h with
  | table => exact ⟨_, _, rfl, by decide, by decide⟩
  | element => exact ⟨_, _, rfl, by decide, by decide⟩
  | entry hpath =>
    obtain ⟨c, cs, rfl, hc⟩ := hpath.front
    refine ⟨c, _, rfl, hc.begins, ?_⟩
    rintro rfl
    exact absurd hc (by decide)

theorem ItemText.path_ne_nil (h : ItemText item line) : item.path ≠ [] := by
  cases h with
  | table _ hpath | element _ hpath | entry hpath => exact hpath.ne_nil

theorem PathText.ne_bracket (h : PathText path text) (hsp : Spaces sp) (rest cs : List Char) :
    sp ++ (text ++ rest) ≠ '[' :: cs := by
  obtain ⟨c, text, rfl, hc⟩ := h.front
  intro heq
  cases sp with
  | nil =>
    obtain rfl := (List.cons.inj heq).1
    exact absurd hc (by decide)
  | cons d sp =>
    obtain rfl := (List.cons.inj heq).1
    exact absurd (hsp _ List.mem_cons_self) (by decide)

/-- An item is read and added to the document, up to what follows it on its line. -/
theorem ItemText.read (h : ItemText item line) (hfuel : 2 * line.length ≤ fuel)
    (hadd : d.add item = some d') (hsp : Spaces sp) (hrest : Closes rest) :
    ∃ sp', Spaces sp' ∧
      Document.readEntry fuel d (line ++ (sp ++ rest)) = some (d', sp' ++ rest) := by
  cases h with
  | table hsp' hpath hparts =>
    have hread := hpath.reads hparts hsp' (closes_cons (by decide : Delimits ']') (sp ++ rest))
    refine ⟨sp, hsp, ?_⟩
    simp only [List.cons_append, List.append_assoc, List.nil_append]
    rw [Document.readEntry.eq_2 _ _ _ (hpath.ne_bracket hsp' _), hread]
    exact congrArg (Option.bind · _) hadd
  | element hsp' hpath hparts =>
    have hread := hpath.reads hparts hsp'
      (closes_cons (by decide : Delimits ']') (']' :: (sp ++ rest)))
    refine ⟨sp, hsp, ?_⟩
    simp only [List.cons_append, List.append_assoc, List.nil_append]
    rw [Document.readEntry.eq_1, hread]
    exact congrArg (Option.bind · _) hadd
  | @entry path v key sp' text hpath hparts hsp' hv =>
    simp only [List.length_append, List.length_cons] at hfuel
    obtain ⟨sp'', hsp'', -, hvalue⟩ := hv.reads fuel nesting (by omega) (Nat.le_refl _) sp hsp rest
      hrest
    refine ⟨sp'', hsp'', ?_⟩
    have hkey : readPath (key ++ '=' :: (sp' ++ (text ++ (sp ++ rest)))) =
        some (path, '=' :: (sp' ++ (text ++ (sp ++ rest)))) :=
      hpath.reads hparts spaces_nil (closes_cons (by decide) _)
    have hbracket : ∀ cs, key ++ '=' :: (sp' ++ (text ++ (sp ++ rest))) ≠ '[' :: cs :=
      hpath.ne_bracket spaces_nil _
    have hspace : skipSpace (sp' ++ (text ++ (sp ++ rest))) = text ++ (sp ++ rest) := by
      obtain ⟨c, cs, rfl, hc, -⟩ := hv.fronts
      rw [skipSpace_append hsp', List.cons_append, skipSpace_cons hc.1]
    rw [List.append_assoc, List.cons_append, List.append_assoc,
      Document.readEntry.eq_3 _ _ _ (fun _ => hbracket _) hbracket]
    simp only [hkey, Option.bind_eq_bind, Option.bind_some, hspace, hvalue]
    exact congrArg (Option.bind · _) hadd

/-- What is read and added is an item. -/
theorem exists_item (h : Document.readEntry fuel d cs = some (d', rest)) :
    ∃ item sp line sp', Spaces sp ∧ ItemText item line ∧ d.add item = some d' ∧ Spaces sp' ∧
      cs = sp ++ (line ++ (sp' ++ rest)) := by
  unfold Document.readEntry at h
  split at h
  · next cs =>
    obtain ⟨⟨path, rest'⟩, hpath, hclose⟩ := Option.bind_eq_some_iff.1 h
    obtain ⟨sp, text, hsp, htext, hparts, rfl⟩ := exists_path hpath
    dsimp only at hclose
    split at hclose
    · obtain ⟨d'', hadd, heq⟩ := Option.bind_eq_some_iff.1 hclose
      obtain ⟨rfl, rfl⟩ := Prod.mk.inj (Option.some.inj heq)
      exact ⟨.element path, [], _, [], spaces_nil, .element hsp htext hparts, hadd, spaces_nil,
        by simp⟩
    · cases hclose
  · next cs _ =>
    obtain ⟨⟨path, rest'⟩, hpath, hclose⟩ := Option.bind_eq_some_iff.1 h
    obtain ⟨sp, text, hsp, htext, hparts, rfl⟩ := exists_path hpath
    dsimp only at hclose
    split at hclose
    · obtain ⟨d'', hadd, heq⟩ := Option.bind_eq_some_iff.1 hclose
      obtain ⟨rfl, rfl⟩ := Prod.mk.inj (Option.some.inj heq)
      exact ⟨.table path, [], _, [], spaces_nil, .table hsp htext hparts, hadd, spaces_nil, by simp⟩
    · cases hclose
  · obtain ⟨⟨path, rest'⟩, hpath, hequals⟩ := Option.bind_eq_some_iff.1 h
    obtain ⟨sp, key, hsp, hkey, hparts, rfl⟩ := exists_path hpath
    dsimp only at hequals
    split at hequals
    · next after _ _ =>
      obtain ⟨⟨v, rest''⟩, hvalue, hput⟩ := Option.bind_eq_some_iff.1 hequals
      obtain ⟨d'', hadd, heq⟩ := Option.bind_eq_some_iff.1 hput
      obtain ⟨rfl, rfl⟩ := Prod.mk.inj (Option.some.inj heq)
      obtain ⟨sp', hsp', hskip⟩ := exists_spaces after
      obtain ⟨text, sp'', hv, hsp'', hcs⟩ := (inverts fuel).value _ _ _ _ hvalue
      refine ⟨.entry path v, sp, _, sp'', hsp, .entry hkey hparts hsp' hv, hadd, hsp'', ?_⟩
      rw [hskip, hcs]
      simp
    · cases hequals

end Items

/-! ## Lines -/

section Lines
variable {comment rest sp text : List Char} {fuel lines : Nat} {d d' : Document} {c : Char}
  {cs next : List Char}

theorem LineBreak.length_le (h : LineBreak rest text) : text.length ≤ rest.length := by
  cases h with
  | lineEnd => simp
  | last => exact Nat.le_refl 0

theorem LineBreak.length_lt (h : LineBreak rest text) (hne : comment ++ rest ≠ []) :
    text.length < (comment ++ rest).length := by
  rw [List.length_append]
  cases h with
  | lineEnd he =>
    obtain ⟨c, cs, rfl, -⟩ := he.front
    simp only [List.length_append, List.length_cons]
    omega
  | last =>
    rw [List.append_nil] at hne
    exact List.length_pos_iff.2 hne

namespace Document

theorem readLines_spaces (hsp : Spaces sp) (lines : Nat) (rest : List Char) :
    readLines fuel lines d (sp ++ rest) = readLines fuel lines d rest := by
  cases lines with
  | zero => rfl
  | succ lines => rw [readLines, readLines, skipSpace_append hsp]

theorem readLines_nil (hlines : 0 < lines) : readLines fuel lines d [] = some d := by
  obtain ⟨lines, rfl⟩ := Nat.exists_eq_add_one.2 hlines
  rfl

theorem readLines_blank (hcs : Closes cs) (hne : cs ≠ []) (hnext : nextLine? cs = some next) :
    readLines fuel (lines + 1) d cs = readLines fuel lines d next := by
  have hspace : skipSpace cs = cs := skipSpace_closes hcs spaces_nil
  obtain ⟨c, cs, rfl⟩ := List.exists_cons_of_ne_nil hne
  rw [readLines, hspace]
  simp only [hnext]

theorem readLines_entry (hc : Begins c) (hentry : readEntry fuel d (c :: cs) = some (d', rest))
    (hnext : nextLine? rest = some next) :
    readLines fuel (lines + 1) d (c :: cs) = readLines fuel lines d' next := by
  rw [readLines, skipSpace_cons hc.1]
  simp only [nextLine?_of_begins hc, hentry, Option.bind_eq_bind, Option.bind_some, hnext]

end Document

end Lines

/-! ## Documents -/

section Written
variable {items : List Item} {text cs : List Char} {d d' : Document} {fuel lines : Nat}

/-- A document is read to what its items make of the one before. -/
theorem Written.reads (h : Written items text) (hfuel : 2 * text.length ≤ fuel)
    (hlines : text.length < lines) (hadd : items.foldlM Document.add d = some d') :
    Document.readLines fuel lines d text = some d' := by
  induction h generalizing lines d with
  | nil =>
    obtain rfl := Option.some.inj hadd
    exact Document.readLines_nil hlines
  | @blank items sp comment rest text hsp hcomment hbreak h ih =>
    rw [List.length_append] at hfuel hlines
    rw [Document.readLines_spaces hsp]
    by_cases hne : comment ++ rest = []
    · obtain rfl : text = [] := by
        have hle := hbreak.length_le
        rw [(List.append_eq_nil_iff.1 hne).2] at hle
        exact List.length_eq_zero_iff.1 (Nat.le_zero.1 hle)
      rw [hne]
      exact ih (Nat.zero_le _) (Nat.zero_lt_of_lt hlines) hadd
    · have hlt := hbreak.length_lt hne
      obtain ⟨lines, rfl⟩ := Nat.exists_eq_add_one.2 (Nat.zero_lt_of_lt hlines)
      have hnext : nextLine? (comment ++ rest) = some text :=
        nextLine?_eq_some_iff.2 ⟨[], comment, rest, spaces_nil, hcomment, hbreak, rfl⟩
      rw [Document.readLines_blank (closes_comment hcomment hbreak.closes) hne hnext]
      exact ih (by omega) (by omega) hadd
  | @item item items sp line sp' comment rest text hsp hitem hsp' hcomment hbreak h ih =>
    obtain ⟨d₁, hitemAdd, hadd⟩ := Option.bind_eq_some_iff.1 hadd
    obtain ⟨c, cs, hline, hc, -⟩ := hitem.front
    simp only [List.length_append] at hfuel hlines
    have hle := hbreak.length_le
    have hpos : 0 < line.length := hline ▸ Nat.zero_lt_succ _
    obtain ⟨lines, rfl⟩ := Nat.exists_eq_add_one.2 (Nat.zero_lt_of_lt hlines)
    obtain ⟨sp'', hsp'', hread⟩ := hitem.read (by omega : 2 * line.length ≤ fuel) hitemAdd hsp'
      (closes_comment hcomment hbreak.closes)
    have hnext : nextLine? (sp'' ++ (comment ++ rest)) = some text :=
      nextLine?_eq_some_iff.2 ⟨sp'', comment, rest, hsp'', hcomment, hbreak, rfl⟩
    rw [hline, List.cons_append] at hread
    rw [Document.readLines_spaces hsp, hline, List.cons_append,
      Document.readLines_entry hc hread hnext]
    exact ih (by omega) (by omega) hadd

/-- What is read to its end has the lines of a document. -/
theorem exists_written (h : Document.readLines fuel lines d cs = some d') :
    ∃ items, Written items cs ∧ items.foldlM Document.add d = some d' := by
  induction lines generalizing d cs with
  | zero => cases h
  | succ lines ih =>
    obtain ⟨sp, hsp, hcs⟩ := exists_spaces cs
    rw [Document.readLines] at h
    split at h
    · next hend =>
      rw [hcs, hend]
      exact ⟨[], .blank hsp .none .last .nil, h⟩
    · next c rest hfront =>
      split at h
      · next next hnext =>
        obtain ⟨items, hitems, hadd⟩ := ih h
        obtain ⟨sp', comment, rest', hsp', hcomment, hbreak, heq⟩ := nextLine?_eq_some_iff.1 hnext
        refine ⟨items, ?_, hadd⟩
        rw [hcs, hfront, heq, ← List.append_assoc]
        exact .blank (hsp.append hsp') hcomment hbreak hitems
      · obtain ⟨⟨d₁, rest₁⟩, hentry, hafter⟩ := Option.bind_eq_some_iff.1 h
        obtain ⟨next, hnext, hread⟩ := Option.bind_eq_some_iff.1 hafter
        obtain ⟨items, hitems, hadd⟩ := ih hread
        obtain ⟨item, sp', line, sp₁, hsp', hline, hitem, hsp₁, heq⟩ := exists_item hentry
        obtain ⟨sp₂, comment, rest₂, hsp₂, hcomment, hbreak, rfl⟩ := nextLine?_eq_some_iff.1 hnext
        refine ⟨item :: items, ?_, ?_⟩
        · have hwritten : Written (item :: items)
              ((sp ++ sp') ++ (line ++ ((sp₁ ++ sp₂) ++ (comment ++ rest₂)))) :=
            .item (hsp.append hsp') hline (hsp₁.append hsp₂) hcomment hbreak hitems
          rw [hcs, hfront, heq]
          simpa only [List.append_assoc] using hwritten
        · rw [List.foldlM_cons, hitem]
          exact hadd

theorem Written.path_ne_nil (h : Written items text) : ∀ item ∈ items, item.path ≠ [] := by
  induction h with
  | nil => exact List.forall_mem_nil _
  | blank hsp hcomment hbreak h ih => exact ih
  | item hsp hitem hsp' hcomment hbreak h ih => exact List.forall_mem_cons.2 ⟨hitem.path_ne_nil, ih⟩

/-- A document defines no tables but by its headers and keys. -/
theorem Written.closed (h : Written items text) (header : List String) :
    ∀ d ∈ definitions header items, d.Closed := by
  induction h generalizing header with
  | nil => exact List.forall_mem_nil _
  | blank hsp hcomment hbreak h ih => exact ih header
  | item hsp hitem hsp' hcomment hbreak h ih =>
    cases hitem with
    | table | element => exact List.forall_mem_cons.2 ⟨closed_along _ trivial, ih _⟩
    | entry hpath hparts hsp hv =>
      exact List.forall_mem_cons.2 ⟨closed_along _ (closed_ofEntry _ hv.closed), ih _⟩

/-- No byte order mark stands in front of a document. -/
theorem Written.ends (h : Written items text) : Ends (· == '﻿') text := by
  have hcloses : ∀ c, Delimits c → (c == '﻿') = false := fun c hc => by
    rcases hc.cases with rfl | rfl | rfl | rfl | rfl | rfl | rfl <;> rfl
  cases h with
  | nil => exact ends_nil _
  | blank hsp hcomment hbreak =>
    exact (closes_comment hcomment hbreak.closes).ends hsp ⟨rfl, rfl⟩ hcloses
  | @item _ _ sp line _ _ _ _ hsp hitem =>
    obtain ⟨c, cs, rfl, -, hc⟩ := hitem.front
    cases sp with
    | nil => exact ends_of_ne hc _
    | cons d sp =>
      refine ends_of_ne ?_ _
      rcases hsp d List.mem_cons_self with rfl | rfl <;> decide

theorem Written.define_iff (h : Written items text) {root : Entries} :
    DefinesTable (definitions [] items) root ↔
      (items.foldlM Document.add ⟨[], []⟩).map Document.root = some root := by
  rw [Definition.definesTable_iff_foldlM (h.closed []), Document.foldlM_add h.path_ne_nil]

end Written

/-- **Reading.** A text is read exactly when it is a document, and to the tables that it defines. -/
theorem ofText?_eq_some_iff {text : String} {root : Entries} :
    ofText? text = some root ↔ IsDocument text root := by
  constructor
  · intro h
    obtain ⟨d, hread, hroot⟩ := Option.bind_eq_some_iff.1 h
    obtain ⟨items, hitems, hadd⟩ := exists_written hread
    have hdefines : DefinesTable (definitions [] items) root :=
      hitems.define_iff.2 (by rw [hadd]; exact hroot)
    by_cases hmark : ∃ cs, text.toList = '﻿' :: cs
    · obtain ⟨cs, hcs⟩ := hmark
      rw [hcs] at hitems
      exact ⟨['﻿'], items, cs, .inr rfl, hcs, hitems, hdefines⟩
    · rw [dropMark.eq_2 _ fun cs hcs => hmark ⟨cs, hcs⟩] at hitems
      exact ⟨[], items, text.toList, .inl rfl, rfl, hitems, hdefines⟩
  · rintro ⟨mark, items, cs, hmark, htext, hitems, hdefines⟩
    have hdrop : dropMark text.toList = cs := by
      rw [htext]
      rcases hmark with rfl | rfl
      · exact dropMark.eq_2 _ fun cs' hcs => absurd hcs (ne_cons_of_ends hitems.ends cs')
      · rfl
    obtain ⟨d, hadd, hroot⟩ := Option.map_eq_some_iff.1 (hitems.define_iff.1 hdefines)
    rw [ofText?, hdrop, hitems.reads (by omega) (by omega) hadd]
    exact congrArg some hroot

end TvmDebug.Toml
