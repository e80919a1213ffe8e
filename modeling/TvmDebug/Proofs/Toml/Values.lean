import TvmDebug.Proofs.Toml.Keys
import TvmDebug.Proofs.Toml.QuotedLines
import TvmDebug.Proofs.Toml.Scalar
import TvmDebug.Proofs.Toml.Tables
/-! # Values are read as they are written

Each rule of the grammar of values is one that the reader follows (`ReadsValue`, `ReadsItems`,
`ReadsMembers`), so that by induction on the grammar every value is read from its text
(`ValueText.reads`). Fuel is counted by the length of the text, and room by how deep lists and
tables are nested. Conversely, by induction on the fuel, what is read is a value of the grammar
(`inverts`). -/
set_option autoImplicit false

namespace TvmDebug.Toml

open Text

/-! ## The front of a value -/

section Front
variable {depth : Nat} {c : Char} {text gap rest : List Char} {v : Toml}

/-- A text that neither closes a list or a table nor stands between their parts. -/
def Fronts (text : List Char) : Prop :=
  ∃ c cs, text = c :: cs ∧ Begins c ∧ c ≠ ']' ∧ c ≠ '\x7d'

theorem fronts_cons (h : Begins c ∧ c ≠ ']' ∧ c ≠ '\x7d') (cs : List Char) : Fronts (c :: cs) :=
  ⟨c, cs, rfl, h⟩

theorem Fronts.skip (h : Fronts text) (hgap : Gap gap) {fuel : Nat} (hfuel : gap.length < fuel)
    (rest : List Char) : skipLines? fuel (gap ++ (text ++ rest)) = some (text ++ rest) := by
  obtain ⟨c, cs, rfl, hc, -⟩ := h
  exact hgap.skip hc hfuel _

theorem Fronts.ne_bracket (h : Fronts text) (rest cs : List Char) : text ++ rest ≠ ']' :: cs := by
  obtain ⟨c, cs', rfl, -, hc, -⟩ := h
  exact fun heq => hc (List.cons.inj heq).1

theorem Fronts.ne_brace (h : Fronts text) (rest cs : List Char) :
    text ++ rest ≠ '\x7d' :: cs := by
  obtain ⟨c, cs', rfl, -, -, hc⟩ := h
  exact fun heq => hc (List.cons.inj heq).1

theorem Fronts.ne_nil (h : Fronts text) (rest : List Char) : text ++ rest ≠ [] := by
  obtain ⟨c, cs, rfl, -⟩ := h
  exact List.cons_ne_nil _ _

theorem InWord.begins (h : InWord c) : Begins c ∧ c ≠ ']' ∧ c ≠ '\x7d' := by
  have hne : ∀ d, ¬ InWord d → c ≠ d := fun d hd heq => hd (heq ▸ h)
  refine ⟨⟨h.2.1, ?_⟩, hne _ (by decide), hne _ (by decide)⟩
  simp only [List.mem_cons, List.not_mem_nil, or_false, not_or]
  exact ⟨hne _ (by decide), hne _ (by decide), hne _ (by decide)⟩

theorem PathText.fronts {path : List String} (h : PathText path text) : Fronts text := by
  obtain ⟨c, cs, rfl, hc⟩ := h.front
  refine ⟨c, cs, rfl, hc.begins, ?_, ?_⟩ <;> rintro rfl <;> exact absurd hc (by decide)

theorem ValueText.fronts (h : ValueText depth text v) : Fronts text := by
  cases h with
  | string _ h => cases h <;> exact fronts_cons (by decide) _
  | scalar _ h =>
    obtain ⟨c, cs, rfl, hc⟩ := h.isWord.front
    exact fronts_cons hc.begins cs
  | array => exact fronts_cons (by decide) _
  | braces => exact fronts_cons (by decide) _

/-- To what is written as a value a document does not add. -/
theorem ValueText.closed (h : ValueText depth text v) : (Definition.value v).Closed := by
  cases h with
  | scalar _ h => cases h <;> trivial
  | string | array => trivial
  | braces => rfl

end Front

/-! ## Rules of the reader -/

/-- The text is read as a value, whatever follows it. Spaces after it may be read with it. -/
def ReadsValue (depth : Nat) (text : List Char) (v : Toml) : Prop :=
  ∀ fuel room, 2 * text.length ≤ fuel → depth ≤ room → ∀ sp, Spaces sp → ∀ rest, Closes rest →
    ∃ sp', Spaces sp' ∧ sp'.length ≤ sp.length ∧
      readValue fuel room (text ++ (sp ++ rest)) = some (v, sp' ++ rest)

/-- The text is read as the items of a list, up to its closing bracket. -/
def ReadsItems (depth : Nat) (text : List Char) (items : List Toml) : Prop :=
  ∀ fuel room, 2 * text.length ≤ fuel → depth ≤ room → ∀ rest,
    readItems fuel room (text ++ rest) = some (items, rest)

/-- The entries with those of a table in braces. -/
def putMembers (es : Entries) (members : List (List String × Toml)) : Option Entries :=
  members.foldlM (fun es m => es.putDotted m.2 m.1) es

/-- The text is read as the members of a table in braces, up to its closing brace. -/
def ReadsMembers (depth : Nat) (text : List Char) (members : List (List String × Toml)) : Prop :=
  ∀ fuel room, 2 * text.length ≤ fuel → depth ≤ room → ∀ es es', putMembers es members = some es' →
    ∀ rest, readMembers fuel room es (text ++ rest) = some (es', rest)

section Values
variable {depth : Nat} {text gap gap' : List Char} {v : Toml} {items : List Toml}

theorem readsValue_string {s : List Char} (h : StringText s text) :
    ReadsValue depth text (.string (String.ofList s)) := by
  intro fuel room hfuel _ sp hsp rest hrest
  have hpos : 0 < text.length := by cases h <;> exact Nat.zero_lt_succ _
  obtain ⟨fuel, rfl⟩ : ∃ n, fuel = n + 1 := ⟨fuel - 1, by omega⟩
  have hends : ∀ q, ¬ Delimits q → ¬ IsBlank q → Ends (· == q) (sp ++ rest) := fun q hq hblank =>
    hrest.ends hsp ⟨beq_eq_false_iff_ne.2 fun h => hblank (.inl h.symm),
      beq_eq_false_iff_ne.2 fun h => hblank (.inr h.symm)⟩ fun c hc =>
        beq_eq_false_iff_ne.2 fun h => hq (h ▸ hc)
  exact ⟨sp, hsp, Nat.le_refl _,
    h.read (hends _ (by decide) (by decide)) (hends _ (by decide) (by decide)) fuel room⟩

theorem readsValue_scalar (h : ScalarText text v) : ReadsValue depth text v := by
  intro fuel room hfuel _ sp hsp rest hrest
  obtain ⟨c, cs, hcs, hmark, hblank, hdouble, hsingle⟩ := h.isWord.front
  have hfirst : ∀ q, IsMark q ∨ q = '"' ∨ q = '\'' → ∀ cs', text ++ (sp ++ rest) ≠ q :: cs' := by
    intro q hq cs' heq
    rw [hcs] at heq
    obtain rfl : c = q := (List.cons.inj heq).1
    exact hq.elim hmark (Or.rec hdouble hsingle)
  have hpos : 0 < text.length := hcs ▸ Nat.zero_lt_succ _
  obtain ⟨fuel, rfl⟩ : ∃ n, fuel = n + 1 := ⟨fuel - 1, by omega⟩
  have hends : Ends isScalarChar rest := fun c hc => by
    rcases (hrest c hc).cases with rfl | rfl | rfl | rfl | rfl | rfl | rfl <;> decide
  refine ⟨[], spaces_nil, Nat.zero_le _, ?_⟩
  rw [List.nil_append, ← h.read hsp hends]
  exact readValue.eq_8 room _ fuel (fun _ => hfirst _ (.inr (.inl rfl)) _)
    (fun _ => hfirst _ (.inr (.inl rfl)) _) (fun _ => hfirst _ (.inr (.inr rfl)) _)
    (fun _ => hfirst _ (.inr (.inr rfl)) _) (fun _ => hfirst _ (.inl (by decide)) _)
    fun _ => hfirst _ (.inl (by decide)) _

/-- A value with what stands between it and the next mark. -/
theorem ReadsValue.upTo (h : ReadsValue depth text v) (hgap : Gap gap) {c : Char}
    (hc : Delimits c) (hbegins : Begins c) {fuel room : Nat} (hfuel : 2 * text.length ≤ fuel)
    (hroom : depth ≤ room) (rest : List Char) :
    ∃ rest', readValue fuel room (text ++ (gap ++ c :: rest)) = some (v, rest') ∧
      ∀ fuel', gap.length < fuel' → skipLines? fuel' rest' = some (c :: rest) := by
  obtain ⟨sp, gap', rfl, hsp, hgap', hcloses⟩ := hgap.split hc rest
  obtain ⟨sp', hsp', hle, hread⟩ := h fuel room hfuel hroom sp hsp _ hcloses
  rw [List.append_assoc]
  refine ⟨_, hread, fun fuel' hfuel' => ?_⟩
  rw [List.length_append] at hfuel'
  rw [← List.append_assoc]
  refine (hgap'.append hsp').skip hbegins ?_ rest
  rw [List.length_append]
  omega

theorem readsValue_bracket (h : ReadsItems depth text items) :
    ReadsValue (depth + 1) ('[' :: text) (.array items) := by
  intro fuel room hfuel hroom sp hsp rest _
  rw [List.length_cons] at hfuel
  obtain ⟨fuel, rfl⟩ : ∃ n, fuel = n + 1 := ⟨fuel - 1, by omega⟩
  have hroom' : room ≠ 0 := by omega
  have hitems := h fuel (room - 1) (by omega) (by omega) (sp ++ rest)
  refine ⟨sp, hsp, Nat.le_refl _, ?_⟩
  rw [List.cons_append, readValue.eq_6, if_neg hroom', hitems]
  rfl

theorem readsValue_brace {members : List (List String × Toml)} {es : Entries}
    (h : ReadsMembers depth text members) (hes : putMembers [] members = some es) :
    ReadsValue (depth + 1) ('\x7b' :: text) (.table .braced es) := by
  intro fuel room hfuel hroom sp hsp rest _
  rw [List.length_cons] at hfuel
  obtain ⟨fuel, rfl⟩ : ∃ n, fuel = n + 1 := ⟨fuel - 1, by omega⟩
  have hroom' : room ≠ 0 := by omega
  have hmembers := h fuel (room - 1) (by omega) (by omega) [] es hes (sp ++ rest)
  refine ⟨sp, hsp, Nat.le_refl _, ?_⟩
  rw [List.cons_append, readValue.eq_7, if_neg hroom', hmembers]
  rfl

end Values

/-! ## Lists -/

section Items
variable {depth fuel room : Nat} {text texts gap gap' cs rest rest' : List Char} {v : Toml}
  {items : List Toml}

theorem readsItems_nil (hgap : Gap gap) : ReadsItems depth (gap ++ [']']) [] := by
  intro fuel room hfuel _ rest
  rw [List.length_append, List.length_singleton] at hfuel
  obtain ⟨fuel, rfl⟩ : ∃ n, fuel = n + 1 := ⟨fuel - 1, by omega⟩
  rw [List.append_assoc, List.singleton_append, readItems,
    hgap.skip (by decide : Begins ']') (by omega)]
  rfl

/-- The items from the one that was read before the text. -/
def itemsAfter (fuel room : Nat) (v : Toml) : List Char → Option (List Toml × List Char)
  | ',' :: rest => (readItems fuel room rest).bind fun (items, rest) => some (v :: items, rest)
  | ']' :: rest => some ([v], rest)
  | _ => none

theorem readItems_item (hgap : Gap gap) (hfront : Fronts text) (hv : ReadsValue depth text v)
    (hgap' : Gap gap') {c : Char} (hc : Delimits c) (hbegins : Begins c)
    (hfuel : 2 * (gap.length + text.length + gap'.length) ≤ fuel) (hroom : depth ≤ room)
    (rest : List Char) :
    readItems (fuel + 1) room (gap ++ (text ++ (gap' ++ c :: rest))) =
      itemsAfter fuel room v (c :: rest) := by
  obtain ⟨rest', hvalue, hskip⟩ := hv.upTo hgap' hc hbegins (by omega : 2 * text.length ≤ fuel)
    hroom rest
  rw [readItems, hfront.skip hgap (by omega), Option.bind_eq_bind, Option.bind_some]
  split
  · next heq => exact absurd heq (hfront.ne_bracket _ _)
  · simp only [hvalue, hskip (fuel + 1) (by omega), Option.bind_eq_bind, Option.bind_some]
    rfl

theorem readsItems_last (hgap : Gap gap) (hfront : Fronts text) (hv : ReadsValue depth text v)
    (hgap' : Gap gap') : ReadsItems depth (gap ++ (text ++ (gap' ++ [']']))) [v] := by
  intro fuel room hfuel hroom rest
  simp only [List.length_append, List.length_singleton] at hfuel
  obtain ⟨fuel, rfl⟩ : ∃ n, fuel = n + 1 := ⟨fuel - 1, by omega⟩
  simp only [List.append_assoc, List.singleton_append]
  rw [readItems_item hgap hfront hv hgap' (by decide) (by decide) (by omega) hroom]
  rfl

theorem readsItems_cons (hgap : Gap gap) (hfront : Fronts text) (hv : ReadsValue depth text v)
    (hgap' : Gap gap') (hitems : ReadsItems depth texts items) :
    ReadsItems depth (gap ++ (text ++ (gap' ++ ',' :: texts))) (v :: items) := by
  intro fuel room hfuel hroom rest
  simp only [List.length_append, List.length_cons] at hfuel
  obtain ⟨fuel, rfl⟩ : ∃ n, fuel = n + 1 := ⟨fuel - 1, by omega⟩
  simp only [List.append_assoc, List.cons_append]
  rw [readItems_item hgap hfront hv hgap' (by decide) (by decide) (by omega) hroom]
  rw [itemsAfter, hitems fuel room (by omega) hroom]
  rfl

end Items

/-! ## Tables in braces -/

section Members
variable {depth fuel room : Nat} {es es' : Entries} {path : List String} {v : Toml}
  {members : List (List String × Toml)} {gap key gap₁ gap₂ text gap₃ texts rest : List Char}

theorem putMembers_cons : putMembers es ((path, v) :: members) =
    (es.putDotted v path).bind fun es => putMembers es members :=
  rfl

theorem readsMembers_nil (hgap : Gap gap) : ReadsMembers depth (gap ++ ['\x7d']) [] := by
  intro fuel room hfuel _ es es' hes rest
  obtain rfl := Option.some.inj hes
  rw [List.length_append, List.length_singleton] at hfuel
  obtain ⟨fuel, rfl⟩ : ∃ n, fuel = n + 1 := ⟨fuel - 1, by omega⟩
  rw [List.append_assoc, List.singleton_append, readMembers,
    hgap.skip (by decide : Begins '\x7d') (by omega)]
  rfl

/-- A key is read with the white space after it; the rest of a gap is skipped. -/
theorem PathText.upTo (h : PathText path key) (hparts : path.length ≤ 80) (hgap : Gap gap)
    (rest : List Char) : ∃ rest', readPath (key ++ (gap ++ '=' :: rest)) = some (path, rest') ∧
      ∀ fuel, gap.length < fuel → skipLines? fuel rest' = some ('=' :: rest) := by
  obtain ⟨sp, gap', rfl, hsp, hgap', hcloses⟩ := hgap.split (by decide : Delimits '=') rest
  refine ⟨gap' ++ '=' :: rest, ?_, fun fuel hfuel => ?_⟩
  · rw [List.append_assoc, ← List.append_assoc]
    exact (h.append hsp).reads hparts spaces_nil hcloses
  · rw [List.length_append] at hfuel
    exact hgap'.skip (by decide) (by omega) rest

/-- The entries after the member that was read before the text. -/
def membersAfter (fuel room : Nat) (es : Entries) : List Char → Option (Entries × List Char)
  | ',' :: rest => readMembers fuel room es rest
  | '\x7d' :: rest => some (es, rest)
  | _ => none

theorem readMembers_member (hgap : Gap gap) (hkey : PathText path key) (hparts : path.length ≤ 80)
    (hgap₁ : Gap gap₁) (hgap₂ : Gap gap₂) (hfront : Fronts text) (hv : ReadsValue depth text v)
    (hgap₃ : Gap gap₃) {c : Char} (hc : Delimits c) (hbegins : Begins c)
    (hfuel : 2 * (gap.length + gap₁.length + gap₂.length + text.length + gap₃.length) ≤ fuel)
    (hroom : depth ≤ room) (rest : List Char) :
    readMembers (fuel + 1) room es
        (gap ++ (key ++ (gap₁ ++ '=' :: (gap₂ ++ (text ++ (gap₃ ++ c :: rest)))))) =
      (es.putDotted v path).bind fun es => membersAfter fuel room es (c :: rest) := by
  obtain ⟨rest', hvalue, hskip⟩ := hv.upTo hgap₃ hc hbegins (by omega : 2 * text.length ≤ fuel)
    hroom rest
  obtain ⟨rest'', hpath, hskip'⟩ := hkey.upTo hparts hgap₁ (gap₂ ++ (text ++ (gap₃ ++ c :: rest)))
  rw [readMembers, hkey.fronts.skip hgap (by omega), Option.bind_eq_bind, Option.bind_some]
  split
  · next heq => exact absurd heq (hkey.fronts.ne_brace _ _)
  · simp only [hpath, hskip' (fuel + 1) (by omega), hfront.skip hgap₂ (by omega : _ < fuel + 1),
      hvalue, hskip (fuel + 1) (by omega), Option.bind_eq_bind, Option.bind_some]
    rfl

theorem readsMembers_last (hgap : Gap gap) (hkey : PathText path key) (hparts : path.length ≤ 80)
    (hgap₁ : Gap gap₁) (hgap₂ : Gap gap₂) (hfront : Fronts text) (hv : ReadsValue depth text v)
    (hgap₃ : Gap gap₃) :
    ReadsMembers depth
      (gap ++ (key ++ (gap₁ ++ '=' :: (gap₂ ++ (text ++ (gap₃ ++ ['\x7d'])))))) [(path, v)] := by
  intro fuel room hfuel hroom es es' hes rest
  simp only [List.length_append, List.length_cons, List.length_nil] at hfuel
  obtain ⟨fuel, rfl⟩ : ∃ n, fuel = n + 1 := ⟨fuel - 1, by omega⟩
  obtain ⟨es₁, hput, heq⟩ := Option.bind_eq_some_iff.1 (putMembers_cons.symm.trans hes)
  obtain rfl := Option.some.inj heq
  simp only [List.append_assoc, List.cons_append, List.nil_append]
  rw [readMembers_member hgap hkey hparts hgap₁ hgap₂ hfront hv hgap₃ (by decide) (by decide)
    (by omega) hroom, hput]
  rfl

theorem readsMembers_cons (hgap : Gap gap) (hkey : PathText path key) (hparts : path.length ≤ 80)
    (hgap₁ : Gap gap₁) (hgap₂ : Gap gap₂) (hfront : Fronts text) (hv : ReadsValue depth text v)
    (hgap₃ : Gap gap₃) (hmembers : ReadsMembers depth texts members) :
    ReadsMembers depth
      (gap ++ (key ++ (gap₁ ++ '=' :: (gap₂ ++ (text ++ (gap₃ ++ ',' :: texts))))))
      ((path, v) :: members) := by
  intro fuel room hfuel hroom es es' hes rest
  simp only [List.length_append, List.length_cons] at hfuel
  obtain ⟨fuel, rfl⟩ : ∃ n, fuel = n + 1 := ⟨fuel - 1, by omega⟩
  obtain ⟨es₁, hput, hes⟩ := Option.bind_eq_some_iff.1 (putMembers_cons.symm.trans hes)
  simp only [List.append_assoc, List.cons_append]
  rw [readMembers_member hgap hkey hparts hgap₁ hgap₂ hfront hv hgap₃ (by decide) (by decide)
    (by omega) hroom, hput]
  exact hmembers fuel room (by omega) hroom es₁ es' hes rest

theorem closed_along {dotted : Bool} (path : List String) {d : Definition} (h : d.Closed) :
    (Definition.along dotted path d).Closed := by
  induction path with
  | nil => exact h
  | cons key path ih => exact ih

theorem closed_ofEntry (path : List String) (h : (Definition.value v).Closed) :
    (Definition.ofEntry path v).Closed := by
  cases path with
  | nil => exact h
  | cons key path => exact closed_along path h

theorem MembersText.closed {depth : Nat} {text : List Char} {members : List (List String × Toml)} :
    MembersText depth text members → ∀ m ∈ members, (Definition.value m.2).Closed
  | .nil _ _ => nofun
  | .last _ _ _ _ _ hv _ => List.forall_mem_singleton.2 hv.closed
  | .cons _ _ _ _ _ hv _ h => List.forall_mem_cons.2 ⟨hv.closed, h.closed⟩

/-- The members of a table in braces make its entries. -/
theorem MembersText.putMembers_iff (h : MembersText depth text members) :
    putMembers [] members = some es ↔
      DefinesTable (members.map fun m => .ofEntry m.1 m.2) es := by
  have hclosed : ∀ d ∈ members.map fun m => Definition.ofEntry m.1 m.2, d.Closed := by
    intro d hd
    obtain ⟨m, hm, rfl⟩ := List.mem_map.1 hd
    exact closed_ofEntry m.1 (h.closed m hm)
  rw [Definition.definesTable_iff_foldlM hclosed, List.foldlM_map, putMembers]
  simp only [Entries.putDotted_eq]

end Members

/-! ## Every value is read -/

mutual

theorem ValueText.reads {depth : Nat} {text : List Char} {v : Toml} :
    ValueText depth text v → ReadsValue depth text v
  | .string _ h => readsValue_string h
  | .scalar _ h => readsValue_scalar h
  | .array h => readsValue_bracket h.reads
  | .braces h hes => readsValue_brace h.reads (h.putMembers_iff.2 hes)

theorem ItemsText.reads {depth : Nat} {text : List Char} {items : List Toml} :
    ItemsText depth text items → ReadsItems depth text items
  | .nil _ hgap => readsItems_nil hgap
  | .last hgap hv hgap' => readsItems_last hgap hv.fronts hv.reads hgap'
  | .cons hgap hv hgap' hitems => readsItems_cons hgap hv.fronts hv.reads hgap' hitems.reads

theorem MembersText.reads {depth : Nat} {text : List Char} {members : List (List String × Toml)} :
    MembersText depth text members → ReadsMembers depth text members
  | .nil _ hgap => readsMembers_nil hgap
  | .last hgap hkey hparts hgap₁ hgap₂ hv hgap₃ =>
    readsMembers_last hgap hkey hparts hgap₁ hgap₂ hv.fronts hv.reads hgap₃
  | .cons hgap hkey hparts hgap₁ hgap₂ hv hgap₃ h =>
    readsMembers_cons hgap hkey hparts hgap₁ hgap₂ hv.fronts hv.reads hgap₃ h.reads

end

/-! ## What is read is a value -/

/-- What the readers of values read with so much fuel is written in the text before the rest. -/
structure Inverts (fuel : Nat) : Prop where
  value : ∀ room cs v rest, readValue fuel room cs = some (v, rest) →
    ∃ text sp, ValueText room text v ∧ Spaces sp ∧ cs = text ++ (sp ++ rest)
  items : ∀ room cs items rest, readItems fuel room cs = some (items, rest) →
    ∃ text, ItemsText room text items ∧ cs = text ++ rest
  members : ∀ room es cs es' rest, readMembers fuel room es cs = some (es', rest) →
    ∃ text members, MembersText room text members ∧ putMembers es members = some es' ∧
      cs = text ++ rest

section Inverse
variable {fuel room : Nat} {es es' : Entries} {v : Toml} {items : List Toml} {cs rest : List Char}

theorem exists_string {Text : List Char → List Char → Prop} {closing : List Char}
    {r : Option (List Char × List Char)} (htakes : Takes Text closing r cs)
    (h : stringOf r = some (v, rest)) :
    ∃ s text, v = .string (String.ofList s) ∧ Text s text ∧ cs = text ++ (closing ++ rest) := by
  obtain ⟨⟨s, rest'⟩, hr, heq⟩ := Option.map_eq_some_iff.1 h
  obtain ⟨rfl, rfl⟩ := Prod.mk.inj heq
  obtain ⟨text, htext, hcs⟩ := htakes s rest' hr
  exact ⟨s, text, rfl, htext, hcs⟩

theorem exists_value (h : Inverts fuel) (hread : readValue (fuel + 1) room cs = some (v, rest)) :
    ∃ text sp, ValueText room text v ∧ Spaces sp ∧ cs = text ++ (sp ++ rest) := by
  unfold readValue at hread
  split at hread
  · obtain ⟨s, text, rfl, ⟨text', hopened, htext⟩, rfl⟩ :=
      exists_string (takes_readBasicLinesFrom _).opened hread
    exact ⟨_, [], .string room (.basicLines hopened htext), spaces_nil, by simp⟩
  · obtain ⟨s, text, rfl, htext, rfl⟩ := exists_string (takes_readBasic _) hread
    exact ⟨_, [], .string room (.basic htext), spaces_nil, by simp⟩
  · obtain ⟨s, text, rfl, ⟨text', hopened, rfl, htext⟩, rfl⟩ :=
      exists_string (takes_readLiteralLinesFrom _).opened hread
    exact ⟨_, [], .string room (.literalLines hopened htext), spaces_nil, by simp⟩
  · obtain ⟨s, text, rfl, ⟨htext, rfl⟩, rfl⟩ := exists_string (takes_readLiteral _) hread
    exact ⟨_, [], .string room (.literal htext), spaces_nil, by simp⟩
  · obtain ⟨hroom, hread⟩ := Option.ite_none_left_eq_some.1 hread
    obtain ⟨⟨items, rest'⟩, hitems, heq⟩ := Option.map_eq_some_iff.1 hread
    obtain ⟨rfl, rfl⟩ := Prod.mk.inj heq
    obtain ⟨room, rfl⟩ := Nat.exists_eq_succ_of_ne_zero hroom
    obtain ⟨text, htext, rfl⟩ := h.items _ _ _ _ hitems
    exact ⟨_, [], .array htext, spaces_nil, rfl⟩
  · obtain ⟨hroom, hread⟩ := Option.ite_none_left_eq_some.1 hread
    obtain ⟨⟨es, rest'⟩, hmembers, heq⟩ := Option.map_eq_some_iff.1 hread
    obtain ⟨rfl, rfl⟩ := Prod.mk.inj heq
    obtain ⟨room, rfl⟩ := Nat.exists_eq_succ_of_ne_zero hroom
    obtain ⟨text, members, htext, hput, rfl⟩ := h.members _ _ _ _ _ hmembers
    exact ⟨_, [], .braces htext (htext.putMembers_iff.1 hput), spaces_nil, rfl⟩
  · obtain ⟨text, sp, htext, hsp, rfl⟩ := exists_of_readScalar hread
    exact ⟨text, sp, .scalar room htext, hsp, rfl⟩

theorem exists_items (h : Inverts fuel)
    (hread : readItems (fuel + 1) room cs = some (items, rest)) :
    ∃ text, ItemsText room text items ∧ cs = text ++ rest := by
  rw [readItems] at hread
  obtain ⟨front, hskip, hfirst⟩ := Option.bind_eq_some_iff.1 hread
  split at hfirst
  · obtain ⟨rfl, rfl⟩ := Prod.mk.inj (Option.some.inj hfirst)
    obtain ⟨gap, hgap, rfl⟩ := exists_gap hskip (List.cons_ne_nil _ _)
    exact ⟨_, .nil room hgap, by simp⟩
  · obtain ⟨⟨item, rest₁⟩, hvalue, hafter⟩ := Option.bind_eq_some_iff.1 hfirst
    obtain ⟨rest₂, hskip', hmark⟩ := Option.bind_eq_some_iff.1 hafter
    obtain ⟨text, sp, hv, hsp, rfl⟩ := h.value _ _ _ _ hvalue
    obtain ⟨gap, hgap, rfl⟩ := exists_gap hskip (hv.fronts.ne_nil _)
    split at hmark
    · obtain ⟨⟨others, rest₃⟩, hitems, heq⟩ := Option.bind_eq_some_iff.1 hmark
      obtain ⟨rfl, rfl⟩ := Prod.mk.inj (Option.some.inj heq)
      obtain ⟨gap', hgap', rfl⟩ := exists_gap hskip' (List.cons_ne_nil _ _)
      obtain ⟨texts, htexts, rfl⟩ := h.items _ _ _ _ hitems
      exact ⟨_, .cons hgap hv (hgap'.append hsp) htexts, by simp⟩
    · obtain ⟨rfl, rfl⟩ := Prod.mk.inj (Option.some.inj hmark)
      obtain ⟨gap', hgap', rfl⟩ := exists_gap hskip' (List.cons_ne_nil _ _)
      exact ⟨_, .last hgap hv (hgap'.append hsp), by simp⟩
    · cases hmark

theorem exists_members (h : Inverts fuel)
    (hread : readMembers (fuel + 1) room es cs = some (es', rest)) :
    ∃ text members, MembersText room text members ∧ putMembers es members = some es' ∧
      cs = text ++ rest := by
  rw [readMembers] at hread
  obtain ⟨front, hskip, hfirst⟩ := Option.bind_eq_some_iff.1 hread
  split at hfirst
  · obtain ⟨rfl, rfl⟩ := Prod.mk.inj (Option.some.inj hfirst)
    obtain ⟨gap, hgap, rfl⟩ := exists_gap hskip (List.cons_ne_nil _ _)
    exact ⟨_, [], .nil room hgap, rfl, by simp⟩
  · obtain ⟨⟨path, rest₁⟩, hpath, hkey⟩ := Option.bind_eq_some_iff.1 hfirst
    obtain ⟨rest₂, hskip₁, hequals⟩ := Option.bind_eq_some_iff.1 hkey
    split at hequals
    · obtain ⟨rest₃, hskip₂, hbefore⟩ := Option.bind_eq_some_iff.1 hequals
      obtain ⟨⟨v, rest₄⟩, hvalue, hafter⟩ := Option.bind_eq_some_iff.1 hbefore
      obtain ⟨es₁, hput, hadd⟩ := Option.bind_eq_some_iff.1 hafter
      obtain ⟨rest₅, hskip₃, hmark⟩ := Option.bind_eq_some_iff.1 hadd
      obtain ⟨sp, key, hsp, hkeyText, hparts, rfl⟩ := exists_path hpath
      obtain ⟨text, sp', hv, hsp', rfl⟩ := h.value _ _ _ _ hvalue
      obtain ⟨gap₁, hgap₁, rfl⟩ := exists_gap hskip₁ (List.cons_ne_nil _ _)
      obtain ⟨gap₂, hgap₂, rfl⟩ := exists_gap hskip₂ (hv.fronts.ne_nil _)
      have hfront : sp ++ (key ++ (gap₁ ++ '=' :: (gap₂ ++ (text ++ (sp' ++ rest₄))))) ≠ [] :=
        List.append_ne_nil_of_right_ne_nil _ (hkeyText.fronts.ne_nil _)
      obtain ⟨gap, hgap, rfl⟩ := exists_gap hskip hfront
      have hgap' : Gap (gap ++ sp) := List.append_nil sp ▸ hgap.trans (Gap.nil.append hsp)
      split at hmark
      · obtain ⟨gap₃, hgap₃, rfl⟩ := exists_gap hskip₃ (List.cons_ne_nil _ _)
        obtain ⟨texts, members, hmembers, hputs, rfl⟩ := h.members _ _ _ _ _ hmark
        refine ⟨_, _, .cons hgap' hkeyText hparts hgap₁ hgap₂ hv (hgap₃.append hsp') hmembers, ?_,
          by simp⟩
        rw [putMembers_cons, hput]
        exact hputs
      · obtain ⟨rfl, rfl⟩ := Prod.mk.inj (Option.some.inj hmark)
        obtain ⟨gap₃, hgap₃, rfl⟩ := exists_gap hskip₃ (List.cons_ne_nil _ _)
        refine ⟨_, _, .last hgap' hkeyText hparts hgap₁ hgap₂ hv (hgap₃.append hsp'), ?_, by simp⟩
        rw [putMembers_cons, hput]
        rfl
      · cases hmark
    · cases hequals

theorem inverts (fuel : Nat) : Inverts fuel := by
  induction fuel with
  | zero => exact ⟨nofun, nofun, nofun⟩
  | succ fuel ih =>
    exact ⟨fun _ _ _ _ => exists_value ih, fun _ _ _ _ => exists_items ih,
      fun _ _ _ _ _ => exists_members ih⟩

end Inverse

end TvmDebug.Toml
