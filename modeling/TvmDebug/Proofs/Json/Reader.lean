import TvmDebug.Proofs.Json.Number
import TvmDebug.Proofs.Json.Spelling
/-! # What is written is read back

`IsWritten` says which values are written: their strings spell texts and their numbers are integers
of at most 64 bits. The reader takes such a value off the front of its text, in any layout, and
leaves what follows (`Reads`), so that the text of a value reads as the value (`ofText?_text`).

The induction is on the value, and each array or object needs one on its parts. The fuel is bounded
by the length of the text: a value takes at most two units for each of its characters. -/
set_option autoImplicit false

namespace TvmDebug.Json

open Text

/-! ## Written values -/

/-- The strings of the value spell texts, its numbers are integers of at most 64 bits. -/
inductive IsWritten : Json → Prop
  | null : IsWritten .null
  | bool (b : Bool) : IsWritten (.bool b)
  | int {k : Int} (hk : k.natAbs < UInt64.size) : IsWritten (ofInt k)
  | string (cs : List Char) : IsWritten (.string (escape cs))
  | array {items : List Json} (h : ∀ j ∈ items, IsWritten j) : IsWritten (.array items)
  | object {members : List (List Char × Json)} (hkeys : ∀ m ∈ members, ∃ cs, m.1 = escape cs)
      (h : ∀ m ∈ members, IsWritten m.2) : IsWritten (.object members)

/-! ## White space -/

section Space
variable {space cs : List Char} {c : Char}

theorem skipSpace_append (h : ∀ c ∈ space, isSpace c = true) (cs : List Char) :
    skipSpace (space ++ cs) = skipSpace cs :=
  List.dropWhile_append_of_pos h

theorem skipSpace_cons (h : isSpace c = false) (cs : List Char) :
    skipSpace (c :: cs) = c :: cs :=
  (ends_cons h cs).dropWhile_eq_self

theorem readValue_append (h : ∀ c ∈ space, isSpace c = true) (fuel : Nat) (cs : List Char) :
    readValue fuel (space ++ cs) = readValue fuel cs := by
  cases fuel with
  | zero => rw [readValue, readValue]
  | succ fuel => rw [readValue, readValue, skipSpace_append h]

theorem readItems_append (h : ∀ c ∈ space, isSpace c = true) (fuel : Nat) (cs : List Char) :
    readItems fuel (space ++ cs) = readItems fuel cs := by
  cases fuel with
  | zero => rw [readItems, readItems]
  | succ fuel => rw [readItems, readItems, readValue_append h]

theorem readMembers_append (h : ∀ c ∈ space, isSpace c = true) (fuel : Nat) (cs : List Char) :
    readMembers fuel (space ++ cs) = readMembers fuel cs := by
  cases fuel with
  | zero => rw [readMembers, readMembers]
  | succ fuel => rw [readMembers, readMembers, skipSpace_append h]

theorem ends_space (h : ∀ c ∈ space, isSpace c = true) (hc : Number.isPart c = false)
    (cs : List Char) : Ends Number.isPart (space ++ c :: cs) := by
  cases space with
  | nil => exact ends_cons hc cs
  | cons s space =>
    refine ends_cons ?_ _
    have hs := h s List.mem_cons_self
    simp only [isSpace, Bool.or_eq_true, beq_iff_eq] at hs
    rcases hs with ((rfl | rfl) | rfl) | rfl <;> decide

end Space

/-! ## One step of the readers -/

section Step
variable {fuel : Nat} {space cs rest rest' : List Char} {c : Char} {j : Json} {key : List Char}

theorem ne_of_front {d : Char} (hc : c.isDigit = true ∨ c = '-')
    (hd : (d.isDigit || d == '-') = false) : c ≠ d := by
  rintro rfl
  rcases hc with hc | rfl
  · simp [hc] at hd
  · exact absurd hd (by decide)

theorem isSpace_of_front (hc : c.isDigit = true ∨ c = '-') : isSpace c = false := by
  simp only [isSpace, Bool.or_eq_false_iff, beq_eq_false_iff_ne]
  exact ⟨⟨⟨ne_of_front hc (by decide), ne_of_front hc (by decide)⟩, ne_of_front hc (by decide)⟩,
    ne_of_front hc (by decide)⟩

theorem readValue_number (hc : c.isDigit = true ∨ c = '-') :
    readValue (fuel + 1) (c :: cs) =
      (readNumber (c :: cs)).map fun (n, rest) => (.number n, rest) := by
  rw [readValue, skipSpace_cons (isSpace_of_front hc)]
  split
  · next heq => exact absurd (List.cons.inj heq).1 (ne_of_front hc (by decide))
  · next heq => exact absurd (List.cons.inj heq).1 (ne_of_front hc (by decide))
  · next heq => exact absurd (List.cons.inj heq).1 (ne_of_front hc (by decide))
  · next heq => exact absurd (List.cons.inj heq).1 (ne_of_front hc (by decide))
  · next heq => exact absurd (List.cons.inj heq).1 (ne_of_front hc (by decide))
  · next heq => exact absurd (List.cons.inj heq).1 (ne_of_front hc (by decide))
  · rfl

theorem readValue_bracket (fuel : Nat) (cs : List Char) :
    readValue (fuel + 1) ('[' :: cs) =
      match skipSpace cs with
      | ']' :: rest => some (.array [], rest)
      | rest => (readItems fuel rest).map fun (items, rest) => (.array items, rest) := by
  rw [readValue, skipSpace_cons (by decide)]
  rfl

theorem readValue_brace (fuel : Nat) (cs : List Char) :
    readValue (fuel + 1) ('\x7b' :: cs) =
      match skipSpace cs with
      | '\x7d' :: rest => some (.object [], rest)
      | rest => (readMembers fuel rest).map fun (members, rest) => (.object members, rest) := by
  rw [readValue, skipSpace_cons (by decide)]
  rfl

theorem readValue_array (hspace : ∀ c ∈ space, isSpace c = true) (hc : isSpace c = false)
    (hend : c ≠ ']') :
    readValue (fuel + 1) ('[' :: (space ++ c :: cs)) =
      (readItems fuel (c :: cs)).map fun (items, rest) => (.array items, rest) := by
  rw [readValue_bracket, skipSpace_append hspace, skipSpace_cons hc]
  split
  · next heq => exact absurd (List.cons.inj heq).1 hend
  · rfl

theorem readValue_object (hspace : ∀ c ∈ space, isSpace c = true) :
    readValue (fuel + 1) ('\x7b' :: (space ++ '"' :: cs)) =
      (readMembers fuel ('"' :: cs)).map fun (members, rest) => (.object members, rest) := by
  rw [readValue_brace, skipSpace_append hspace, skipSpace_cons (by decide)]
  rfl

theorem readItems_step (hvalue : readValue fuel cs = some (j, rest')) :
    readItems (fuel + 1) cs =
      match skipSpace rest' with
      | ',' :: rest => (readItems fuel rest).map fun (items, rest) => (j :: items, rest)
      | ']' :: rest => some ([j], rest)
      | _ => none := by
  rw [readItems, hvalue, Option.bind_eq_bind, Option.bind_some]
  simp only [Option.map_eq_bind]
  rfl

theorem readItems_last (hvalue : readValue fuel cs = some (j, space ++ ']' :: rest))
    (hspace : ∀ c ∈ space, isSpace c = true) :
    readItems (fuel + 1) cs = some ([j], rest) := by
  rw [readItems_step hvalue, skipSpace_append hspace, skipSpace_cons (by decide)]
  rfl

theorem readItems_more (hvalue : readValue fuel cs = some (j, ',' :: rest)) :
    readItems (fuel + 1) cs =
      (readItems fuel rest).map fun (items, rest) => (j :: items, rest) := by
  rw [readItems_step hvalue, skipSpace_cons (by decide)]
  rfl

theorem readMembers_step (hkey : readString cs = some (key, ':' :: rest))
    (hvalue : readValue fuel rest = some (j, rest')) :
    readMembers (fuel + 1) ('"' :: cs) =
      match skipSpace rest' with
      | ',' :: rest =>
        (readMembers fuel rest).map fun (members, rest) => ((key, j) :: members, rest)
      | '\x7d' :: rest => some ([(key, j)], rest)
      | _ => none := by
  rw [readMembers, skipSpace_cons (by decide)]
  change (readString cs).bind _ = _
  rw [hkey, Option.bind_some]
  dsimp only
  rw [skipSpace_cons (by decide)]
  change (readValue fuel rest).bind _ = _
  rw [hvalue, Option.bind_some]
  simp only [Option.map_eq_bind]
  rfl

theorem readMembers_last (hkey : readString cs = some (key, ':' :: rest))
    (hvalue : readValue fuel rest = some (j, space ++ '\x7d' :: rest'))
    (hspace : ∀ c ∈ space, isSpace c = true) :
    readMembers (fuel + 1) ('"' :: cs) = some ([(key, j)], rest') := by
  rw [readMembers_step hkey hvalue, skipSpace_append hspace, skipSpace_cons (by decide)]
  rfl

theorem readMembers_more (hkey : readString cs = some (key, ':' :: rest))
    (hvalue : readValue fuel rest = some (j, ',' :: rest')) :
    readMembers (fuel + 1) ('"' :: cs) =
      (readMembers fuel rest').map fun (members, rest) => ((key, j) :: members, rest) := by
  rw [readMembers_step hkey hvalue, skipSpace_cons (by decide)]
  rfl

end Step

/-! ## Values -/

/-- The reader takes the value off the front of its text; the text has characters, and the first
one neither is white space nor ends an array. -/
structure Reads (layout : Layout) (j : Json) : Prop where
  longer : ∀ level rest, rest.length < (write layout level j rest).length
  front : ∀ level rest, ∃ c cs, write layout level j rest = c :: cs ∧ isSpace c = false ∧ c ≠ ']'
  read : ∀ level rest fuel, Ends Number.isPart rest →
    2 * (write layout level j rest).length ≤ fuel + 1 + 2 * rest.length →
    readValue (fuel + 1) (write layout level j rest) = some (j, rest)

section Parts
variable {layout : Layout} {level : Nat} {rest : List Char}

theorem Reads.read_of_le {j : Json} (h : Reads layout j) {fuel : Nat}
    (hrest : Ends Number.isPart rest)
    (hfuel : 2 * (write layout level j rest).length ≤ fuel + 2 * rest.length) :
    readValue fuel (write layout level j rest) = some (j, rest) := by
  have hlonger := h.longer level rest
  obtain ⟨fuel, rfl⟩ : ∃ n, fuel = n + 1 := ⟨fuel - 1, by omega⟩
  exact h.read level rest fuel hrest hfuel

/-! ### Items -/

theorem ends_writeItems (layout : Layout) (level : Nat) (js : List Json) (rest : List Char) :
    Ends Number.isPart (writeItems layout level js rest) := by
  cases js with
  | nil =>
    rw [writeItems]
    exact ends_space (layout.newLine_space level) (by decide) rest
  | cons j js =>
    rw [writeItems]
    exact ends_cons (by decide) _

theorem length_lt_writeItems {js : List Json} (h : ∀ j ∈ js, Reads layout j) :
    rest.length < (writeItems layout level js rest).length := by
  induction js with
  | nil =>
    rw [writeItems, List.length_append, List.length_cons]
    omega
  | cons j js ih =>
    obtain ⟨hj, hjs⟩ := List.forall_mem_cons.1 h
    have hlonger := hj.longer (level + 1) (writeItems layout level js rest)
    have hrest := ih hjs
    rw [writeItems, List.length_cons, List.length_append]
    omega

theorem read_item {j : Json} {js : List Json} (hj : Reads layout j)
    (hjs : ∀ j' ∈ js, Reads layout j') {fuel : Nat}
    (hfuel : 2 * (write layout (level + 1) j (writeItems layout level js rest)).length ≤
      fuel + 2 * rest.length) :
    readValue fuel (write layout (level + 1) j (writeItems layout level js rest)) =
      some (j, writeItems layout level js rest) := by
  have hlt := @length_lt_writeItems layout level rest js hjs
  exact hj.read_of_le (ends_writeItems layout level js rest) (by omega)

theorem readItems_write {j : Json} {js : List Json} (h : ∀ j' ∈ j :: js, Reads layout j')
    {fuel : Nat}
    (hfuel : 2 * (write layout (level + 1) j (writeItems layout level js rest)).length ≤
      fuel + 2 * rest.length) :
    readItems (fuel + 1) (write layout (level + 1) j (writeItems layout level js rest)) =
      some (j :: js, rest) := by
  -- The induction is on the items that follow. Each takes one unit of fuel, and the comma before it
  -- pays for that.
  induction js generalizing j fuel with
  | nil =>
    obtain ⟨hj, hjs⟩ := List.forall_mem_cons.1 h
    have hvalue := read_item hj hjs hfuel
    rw [writeItems] at hvalue ⊢
    exact readItems_last hvalue (layout.newLine_space level)
  | cons j₁ js ih =>
    obtain ⟨hj, hjs⟩ := List.forall_mem_cons.1 h
    have hvalue := read_item hj hjs hfuel
    have hlonger := hj.longer (level + 1) (writeItems layout level (j₁ :: js) rest)
    rw [writeItems] at hvalue hlonger hfuel ⊢
    rw [List.length_cons, List.length_append] at hlonger
    obtain ⟨fuel, rfl⟩ : ∃ n, fuel = n + 1 := ⟨fuel - 1, by
      have hlt := @length_lt_writeItems layout level rest js (List.forall_mem_cons.1 hjs).2
      have hlonger₁ := (List.forall_mem_cons.1 hjs).1.longer (level + 1)
        (writeItems layout level js rest)
      omega⟩
    have hitems := @ih j₁ hjs fuel (by omega)
    rw [readItems_more hvalue, readItems_append (layout.newLine_space (level + 1)), hitems]
    rfl

/-! ### Members -/

theorem ends_writeMembers (layout : Layout) (level : Nat) (ms : List (List Char × Json))
    (rest : List Char) : Ends Number.isPart (writeMembers layout level ms rest) := by
  cases ms with
  | nil =>
    rw [writeMembers]
    exact ends_space (layout.newLine_space level) (by decide) rest
  | cons m ms =>
    rw [writeMembers]
    exact ends_cons (by decide) _

theorem length_quoted (key rest : List Char) :
    (quoted key rest).length = key.length + rest.length + 2 := by
  rw [quoted, List.length_cons, List.length_append, List.length_cons]
  omega

theorem length_lt_writeMembers {ms : List (List Char × Json)}
    (h : ∀ m ∈ ms, Reads layout m.2) :
    rest.length < (writeMembers layout level ms rest).length := by
  induction ms with
  | nil =>
    rw [writeMembers, List.length_append, List.length_cons]
    omega
  | cons m ms ih =>
    obtain ⟨hm, hms⟩ := List.forall_mem_cons.1 h
    have hlonger := hm.longer (level + 1) (writeMembers layout level ms rest)
    have hrest := ih hms
    rw [writeMembers, List.length_cons, List.length_append, length_quoted, List.length_cons,
      List.length_append]
    omega

theorem read_member {j : Json} {ms : List (List Char × Json)} (hj : Reads layout j)
    (hms : ∀ m ∈ ms, Reads layout m.2) {fuel : Nat}
    (hfuel : 2 * (write layout (level + 1) j (writeMembers layout level ms rest)).length ≤
      fuel + 2 * rest.length) :
    readValue fuel (layout.gap ++ write layout (level + 1) j (writeMembers layout level ms rest)) =
      some (j, writeMembers layout level ms rest) := by
  have hlt := @length_lt_writeMembers layout level rest ms hms
  rw [readValue_append layout.gap_space]
  exact hj.read_of_le (ends_writeMembers layout level ms rest) (by omega)

theorem readMembers_write {m : List Char × Json} {ms : List (List Char × Json)}
    (hkeys : ∀ m' ∈ m :: ms, ∃ cs, m'.1 = escape cs) (h : ∀ m' ∈ m :: ms, Reads layout m'.2)
    {fuel : Nat}
    (hfuel : 2 * (write layout (level + 1) m.2 (writeMembers layout level ms rest)).length ≤
      fuel + 2 * rest.length) :
    readMembers (fuel + 1) (quoted m.1 (':' :: (layout.gap ++
        write layout (level + 1) m.2 (writeMembers layout level ms rest)))) =
      some (m :: ms, rest) := by
  induction ms generalizing m fuel with
  | nil =>
    obtain ⟨⟨cs, hcs⟩, -⟩ := List.forall_mem_cons.1 hkeys
    obtain ⟨hm, hms⟩ := List.forall_mem_cons.1 h
    have hvalue := read_member hm hms hfuel
    rw [hcs, quoted]
    rw [writeMembers] at hvalue ⊢
    rw [readMembers_last (readString_escape cs _) hvalue (layout.newLine_space level), ← hcs]
  | cons m₁ ms ih =>
    obtain ⟨⟨cs, hcs⟩, hkeys'⟩ := List.forall_mem_cons.1 hkeys
    obtain ⟨hm, hms⟩ := List.forall_mem_cons.1 h
    have hvalue := read_member hm hms hfuel
    have hlonger := hm.longer (level + 1) (writeMembers layout level (m₁ :: ms) rest)
    rw [writeMembers] at hvalue hlonger hfuel ⊢
    rw [List.length_cons, List.length_append, length_quoted, List.length_cons,
      List.length_append] at hlonger
    obtain ⟨fuel, rfl⟩ : ∃ n, fuel = n + 1 := ⟨fuel - 1, by
      have hlt := @length_lt_writeMembers layout level rest ms (List.forall_mem_cons.1 hms).2
      have hlonger₁ := (List.forall_mem_cons.1 hms).1.longer (level + 1)
        (writeMembers layout level ms rest)
      omega⟩
    have hmembers := @ih m₁ hkeys' hms fuel (by omega)
    rw [quoted, hcs, readMembers_more (readString_escape cs _) hvalue,
      readMembers_append (layout.newLine_space (level + 1)), hmembers, ← hcs]
    rfl

end Parts

/-! ### Every written value -/

section Values
variable (layout : Layout)

theorem reads_null : Reads layout .null where
  longer level rest := by
    simp only [write, List.length_cons]
    omega
  front level rest := ⟨_, _, by rw [write], by decide, by decide⟩
  read level rest fuel _ _ := by
    rw [write, readValue, skipSpace_cons (by decide)]
    rfl

theorem reads_bool (b : Bool) : Reads layout (.bool b) where
  longer level rest := by
    cases b <;> simp only [write, List.length_cons] <;> omega
  front level rest := by
    cases b
    · exact ⟨_, _, by rw [write], by decide, by decide⟩
    · exact ⟨_, _, by rw [write], by decide, by decide⟩
  read level rest fuel _ _ := by
    cases b
    · rw [write, readValue, skipSpace_cons (by decide)]
      rfl
    · rw [write, readValue, skipSpace_cons (by decide)]
      rfl

theorem reads_string (cs : List Char) : Reads layout (.string (escape cs)) where
  longer level rest := by
    rw [write, length_quoted]
    omega
  front level rest := ⟨_, _, by rw [write, quoted], by decide, by decide⟩
  read level rest fuel _ _ := by
    rw [write, quoted, readValue, skipSpace_cons (by decide)]
    change (readString _).map _ = _
    rw [readString_escape]
    rfl

theorem reads_int (k : Int) : Reads layout (ofInt k) where
  longer level rest := by
    obtain ⟨c, cs, htext, -⟩ := Number.text_front k []
    rw [List.append_nil] at htext
    rw [ofInt_eq, write, List.length_append, htext, List.length_cons]
    omega
  front level rest := by
    obtain ⟨c, cs, htext, hc⟩ := Number.text_front k rest
    exact ⟨c, cs, by rw [ofInt_eq, write, htext], isSpace_of_front hc, ne_of_front hc (by decide)⟩
  read level rest fuel hrest _ := by
    obtain ⟨c, cs, htext, hc⟩ := Number.text_front k rest
    have hread := Number.readNumber_text k hrest
    rw [htext] at hread
    rw [ofInt_eq, write, htext, readValue_number hc, hread]
    rfl

theorem reads_array {items : List Json} (h : ∀ j ∈ items, Reads layout j) :
    Reads layout (.array items) := by
  cases items with
  | nil =>
    refine ⟨fun level rest => ?_, fun level rest => ⟨_, _, by rw [write], by decide, by decide⟩,
      fun level rest fuel _ _ => ?_⟩
    · simp only [write, List.length_cons]
      omega
    · rw [write, readValue_bracket, skipSpace_cons (by decide)]
      rfl
  | cons j js =>
    obtain ⟨hj, hjs⟩ := List.forall_mem_cons.1 h
    refine ⟨fun level rest => ?_, fun level rest => ⟨_, _, by rw [write], by decide, by decide⟩,
      fun level rest fuel hrest hfuel => ?_⟩
    · have hlt := @length_lt_writeItems layout level rest js hjs
      have hlonger := hj.longer (level + 1) (writeItems layout level js rest)
      rw [write, List.length_cons, List.length_append]
      omega
    · obtain ⟨c, cs, hfront, hspace, hend⟩ :=
        hj.front (level + 1) (writeItems layout level js rest)
      rw [write, List.length_cons, List.length_append] at hfuel
      obtain ⟨fuel, rfl⟩ : ∃ n, fuel = n + 1 := ⟨fuel - 1, by
        have hlt := @length_lt_writeItems layout level rest js hjs
        have hlonger := hj.longer (level + 1) (writeItems layout level js rest)
        omega⟩
      rw [write, hfront, readValue_array (layout.newLine_space (level + 1)) hspace hend, ← hfront,
        readItems_write h (by omega)]
      rfl

theorem reads_object {members : List (List Char × Json)}
    (hkeys : ∀ m ∈ members, ∃ cs, m.1 = escape cs) (h : ∀ m ∈ members, Reads layout m.2) :
    Reads layout (.object members) := by
  cases members with
  | nil =>
    refine ⟨fun level rest => ?_, fun level rest => ⟨_, _, by rw [write], by decide, by decide⟩,
      fun level rest fuel _ _ => ?_⟩
    · simp only [write, List.length_cons]
      omega
    · rw [write, readValue_brace, skipSpace_cons (by decide)]
      rfl
  | cons m ms =>
    obtain ⟨hm, hms⟩ := List.forall_mem_cons.1 h
    refine ⟨fun level rest => ?_, fun level rest => ⟨_, _, by rw [write], by decide, by decide⟩,
      fun level rest fuel hrest hfuel => ?_⟩
    · have hlt := @length_lt_writeMembers layout level rest ms hms
      have hlonger := hm.longer (level + 1) (writeMembers layout level ms rest)
      rw [write, List.length_cons, List.length_append, length_quoted, List.length_cons,
        List.length_append]
      omega
    · have hlonger := hm.longer (level + 1) (writeMembers layout level ms rest)
      rw [write, List.length_cons, List.length_append, length_quoted, List.length_cons,
        List.length_append] at hfuel
      obtain ⟨fuel, rfl⟩ : ∃ n, fuel = n + 1 := ⟨fuel - 1, by
        have hlt := @length_lt_writeMembers layout level rest ms hms
        omega⟩
      rw [write, quoted, readValue_object (layout.newLine_space (level + 1)), ← quoted,
        readMembers_write hkeys h (by omega)]
      rfl

theorem reads_of_isWritten {j : Json} (h : IsWritten j) : Reads layout j := by
  induction h with
  | null => exact reads_null layout
  | bool b => exact reads_bool layout b
  | @int k hk => exact reads_int layout k
  | string cs => exact reads_string layout cs
  | array _ ih => exact reads_array layout ih
  | object hkeys _ ih => exact reads_object layout hkeys ih

theorem ofText?_text {j : Json} (h : IsWritten j) : ofText? (j.text layout) = some j := by
  have hread := (reads_of_isWritten layout h).read 0 [] (2 * (write layout 0 j []).length + 1)
    (ends_nil _) (by omega)
  rw [text, ofText?, String.toList_ofList, Option.bind_eq_bind, hread]
  rfl

end Values

/-! ## Spelled out -/

theorem areItemsSpelledOut_iff {js : List Json} :
    areItemsSpelledOut js = true ↔ ∀ j ∈ js, j.isSpelledOut = true := by
  induction js with
  | nil => simp [areItemsSpelledOut]
  | cons j js ih => simp [areItemsSpelledOut, ih]

theorem areMembersSpelledOut_iff {ms : List (List Char × Json)} :
    areMembersSpelledOut ms = true ↔
      ∀ m ∈ ms, (unescape? m.1).isSome = true ∧ m.2.isSpelledOut = true := by
  induction ms with
  | nil => simp [areMembersSpelledOut]
  | cons m ms ih => simp [areMembersSpelledOut, ih, and_assoc]

theorem isSpelledOut_of_isWritten {j : Json} (h : IsWritten j) : j.isSpelledOut = true := by
  induction h with
  | null => rw [isSpelledOut]
  | bool b => rw [isSpelledOut]
  | int hk =>
    rw [ofInt_eq, isSpelledOut]
    exact Number.isFinite_ofInt hk
  | string cs =>
    rw [isSpelledOut, unescape?_escape]
    rfl
  | array _ ih =>
    rw [isSpelledOut, areItemsSpelledOut_iff]
    exact ih
  | object hkeys _ ih =>
    rw [isSpelledOut, areMembersSpelledOut_iff]
    intro m hm
    obtain ⟨cs, hcs⟩ := hkeys m hm
    rw [hcs, unescape?_escape]
    exact ⟨rfl, ih m hm⟩

end TvmDebug.Json
