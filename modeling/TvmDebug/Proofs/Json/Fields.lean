import TvmDebug.Json.Fields
import TvmDebug.Json.Writer
import TvmDebug.Proofs.Json.Reader
import TvmDebug.Proofs.SortedMap
/-! # Written fields mean what was written

Each reader of a value undoes the writer of the same kind: texts, integers, lists, records
(`fields?_ofFields`), kinds (`tagged?_ofFields`) and maps of sections (`sections?_ofFields`).
A written record has every field under its name, so that reading it finds each field by name, in the
order asked for. -/
set_option autoImplicit false

namespace TvmDebug.Json

open Text

/-! ## Simple values -/

@[simp] theorem text?_ofString (s : String) : (ofString s).text? = some s := by
  rw [ofString, text?, unescape?_escape, Option.map_some, String.ofList_toList]

@[simp] theorem int?_ofInt (k : Int) : (ofInt k).int? = some k := Number.int?_ofInt k

@[simp] theorem nat?_ofNat (n : Nat) : (ofNat n).nat? = some n := by
  rw [ofNat_eq, ← ofInt_eq, nat?, int?_ofInt, Option.bind_eq_bind, Option.bind_some,
    if_pos (Int.natCast_nonneg n), Int.toNat_natCast]

@[simp] theorem uint32?_ofNat (w : UInt32) : (ofNat w.toNat).uint32? = some w := by
  rw [uint32?, nat?_ofNat, Option.bind_some, toUInt32?_eq_some_iff]

@[simp] theorem uint64?_ofNat (w : UInt64) : (ofNat w.toNat).uint64? = some w := by
  rw [uint64?, nat?_ofNat, Option.bind_some, toUInt64?_eq_some_iff]

@[simp] theorem int32?_ofInt (w : Int32) : (ofInt w.toInt).int32? = some w := by
  rw [int32?, int?_ofInt, Option.bind_some, toInt32?_eq_some_iff]

theorem mapM_eq_some {α β : Type} {f : β → Option α} {g : β → α} {xs : List β}
    (h : ∀ x ∈ xs, f x = some (g x)) : xs.mapM f = some (xs.map g) := by
  induction xs with
  | nil => rfl
  | cons x xs ih =>
    obtain ⟨hx, hxs⟩ := List.forall_mem_cons.1 h
    rw [List.mapM_cons, hx, ih hxs]
    rfl

theorem list?_ofList {α : Type} {f : Json → Option α} {g : α → Json} {xs : List α}
    (h : ∀ x ∈ xs, f (g x) = some x) : list? f (ofList g xs) = some xs := by
  rw [ofList, list?, List.mapM_map]
  exact (mapM_eq_some h).trans (by rw [List.map_id'])

/-! ## Records -/

section Fields
variable {fields : List (String × Json)}

/-- The members of a written record, by their names. -/
def byName (fields : List (String × Json)) : List (List Char × Json) :=
  fields.map fun field => (field.1.toList, field.2)

theorem named?_ofFields (fields : List (String × Json)) :
    named? (fields.map fun field => (escape field.1.toList, field.2)) = some (byName fields) := by
  rw [named?, List.mapM_map]
  refine mapM_eq_some fun field _ => ?_
  change (unescape? (escape field.1.toList)).map _ = _
  rw [unescape?_escape]
  rfl

theorem filter_byName_eq_nil {name : String} (h : name ∉ fields.map Prod.fst) :
    (byName fields).filter (fun m => m.1 == name.toList) = [] := by
  rw [List.filter_eq_nil_iff]
  intro m hm hname
  obtain ⟨field, hfield, rfl⟩ := List.mem_map.1 hm
  have hsame : field.1 = name := String.toList_inj.1 (beq_iff_eq.1 hname)
  exact h (hsame ▸ List.mem_map_of_mem hfield)

theorem member?_byName (h : (fields.map Prod.fst).Nodup) (name : String) :
    member? (byName fields) name = some (fields.lookup name) := by
  induction fields with
  | nil => rfl
  | cons field fields ih =>
    obtain ⟨hfield, hfields⟩ := List.nodup_cons.1 h
    rw [List.lookup_cons, member?, byName, List.map_cons, List.filter_cons, ← byName]
    by_cases hname : field.1 = name
    · subst hname
      rw [filter_byName_eq_nil hfield]
      simp
    · have hne : (field.1.toList == name.toList) = false := by
        rw [beq_eq_false_iff_ne]
        exact fun heq => hname (String.toList_inj.1 heq)
      have hne' : (name == field.1) = false := beq_eq_false_iff_ne.2 (Ne.symm hname)
      rw [hne, hne', if_neg Bool.false_ne_true, ← member?]
      exact ih hfields

theorem fields?_ofFields (h : (fields.map Prod.fst).Nodup) (names : List String) :
    fields? names (ofFields fields) = some (names.map fun name => fields.lookup name) := by
  rw [ofFields, fields?, named?_ofFields, Option.bind_eq_bind, Option.bind_some]
  exact mapM_eq_some fun name _ => member?_byName h name

theorem tagged?_ofFields {tag : String} {kind : Json}
    (h : (((tag, kind) :: fields).map Prod.fst).Nodup) (kind? : Json → Option String) :
    (ofFields ((tag, kind) :: fields)).tagged? tag kind? =
      (kind? kind).map fun kind' => (kind', ofFields ((tag, kind) :: fields)) := by
  rw [ofFields, tagged?, named?_ofFields, Option.bind_eq_bind, Option.bind_some, member?_byName h,
    List.lookup_cons_self, Option.map_eq_bind]
  rfl

@[simp] theorem noFields?_ofFields (fields : List (String × Json)) :
    (ofFields fields).noFields? = some () := rfl

end Fields

/-! ## Sections -/

theorem escapeChar_of_isDigit {c : Char} (hc : c.isDigit = true) : escapeChar c = [c] := by
  have hne : ∀ d : Char, d.isDigit = false → c ≠ d := by
    rintro d hd rfl
    rw [hc] at hd
    cases hd
  have hcontrol : ¬ c.toNat < 0x20 := by
    obtain ⟨hge, -⟩ : 48 ≤ c.toNat ∧ c.toNat ≤ 57 := by
      simpa [Char.isDigit, UInt32.le_iff_toNat_le] using hc
    omega
  rw [escapeChar, if_neg (hne _ (by decide)), if_neg (hne _ (by decide)),
    if_neg (hne _ (by decide)), if_neg (hne _ (by decide)), if_neg (hne _ (by decide)),
    if_neg (hne _ (by decide)), if_neg (hne _ (by decide)), if_neg hcontrol]

theorem escape_digits (n : Nat) : escape (digits n) = digits n := by
  have hall : ∀ cs : List Char, (∀ c ∈ cs, c.isDigit = true) → escape cs = cs := by
    intro cs hcs
    induction cs with
    | nil => rfl
    | cons c cs ih =>
      obtain ⟨hc, hcs⟩ := List.forall_mem_cons.1 hcs
      rw [escape, List.flatMap_cons, escapeChar_of_isDigit hc, ← escape, ih hcs]
      rfl
  exact hall _ (writesNat_digits n).digits

theorem sectionId?_digits (id : UInt32) : sectionId? (digits id.toNat) = some id := by
  rw [sectionId?, natOfDigits?_eq_some_iff.2 (writesNat_digits id.toNat), Option.bind_eq_bind,
    Option.bind_some, if_pos rfl, toUInt32?_eq_some_iff]

theorem sections?_ofFields {α : Type} {f : Json → Option α} {g : α → Json}
    {m : SortedMap UInt32 α} (h : ∀ e ∈ m.entries, f (g e.2) = some e.2) :
    sections? f (ofFields (m.entries.map fun (id, x) => (String.ofList (digits id.toNat), g x))) =
      some m := by
  rw [ofFields, List.map_map, sections?, List.mapM_map, Option.bind_eq_bind]
  refine (congrArg (Option.bind · _) (mapM_eq_some (g := id) fun e he => ?_)).trans ?_
  · change (sectionId? (escape (String.ofList (digits e.1.toNat)).toList)).bind _ = _
    rw [String.toList_ofList, escape_digits, sectionId?_digits, Option.bind_some]
    change (f (g e.2)).bind _ = _
    rw [h e he]
    rfl
  · rw [Option.bind_some, List.map_id, SortedMap.ofList_entries]

/-! ## Nesting -/

theorem depthItems_le_iff {js : List Json} {n : Nat} :
    depthItems js ≤ n ↔ ∀ j ∈ js, j.depth ≤ n := by
  induction js with
  | nil => simp [depthItems]
  | cons j js ih => rw [depthItems, Nat.max_le, ih, List.forall_mem_cons]

theorem depthMembers_le_iff {ms : List (List Char × Json)} {n : Nat} :
    depthMembers ms ≤ n ↔ ∀ m ∈ ms, m.2.depth ≤ n := by
  induction ms with
  | nil => simp [depthMembers]
  | cons m ms ih => rw [depthMembers, Nat.max_le, ih, List.forall_mem_cons]

@[simp] theorem depth_ofString (s : String) : (ofString s).depth = 0 := by
  simp [ofString, depth]

@[simp] theorem depth_ofInt (k : Int) : (ofInt k).depth = 0 := by
  simp [ofInt, depth]

@[simp] theorem depth_ofNat (n : Nat) : (ofNat n).depth = 0 := by
  simp [ofNat, depth]

theorem depth_ofList_le_iff {α : Type} {g : α → Json} {xs : List α} {n : Nat} :
    (ofList g xs).depth ≤ n + 1 ↔ ∀ x ∈ xs, (g x).depth ≤ n := by
  rw [ofList, depth, Nat.add_le_add_iff_right, depthItems_le_iff, List.forall_mem_map]

theorem depth_le_of_mem_items {j : Json} {js : List Json} (h : j ∈ js) :
    j.depth + 1 ≤ (array js).depth := by
  rw [depth]
  exact Nat.succ_le_succ (depthItems_le_iff.1 (Nat.le_refl _) j h)

theorem depth_le_of_mem_members {m : List Char × Json} {ms : List (List Char × Json)}
    (h : m ∈ ms) : m.2.depth + 1 ≤ (object ms).depth := by
  rw [depth]
  exact Nat.succ_le_succ (depthMembers_le_iff.1 (Nat.le_refl _) m h)

theorem depth_ofFields_le_iff {fields : List (String × Json)} {n : Nat} :
    (ofFields fields).depth ≤ n + 1 ↔ ∀ field ∈ fields, field.2.depth ≤ n := by
  rw [ofFields, depth, Nat.add_le_add_iff_right, depthMembers_le_iff, List.forall_mem_map]

/-! ## Written values -/

theorem isWritten_ofString (s : String) : IsWritten (ofString s) := .string s.toList

theorem isWritten_uint32 (w : UInt32) : IsWritten (ofNat w.toNat) := by
  rw [ofNat_eq, ← ofInt_eq]
  refine .int ?_
  have h := w.toNat_lt
  rw [Int.natAbs_natCast]
  exact Nat.lt_trans h (by decide)

theorem isWritten_uint64 (w : UInt64) : IsWritten (ofNat w.toNat) := by
  rw [ofNat_eq, ← ofInt_eq]
  refine .int ?_
  rw [Int.natAbs_natCast]
  exact w.toNat_lt

theorem isWritten_int32 (w : Int32) : IsWritten (ofInt w.toInt) := by
  refine .int ?_
  have hlt := w.toInt_lt
  have hge := w.le_toInt
  have hsize : UInt64.size = 2 ^ 64 := rfl
  omega

theorem isWritten_ofFields {fields : List (String × Json)}
    (h : ∀ field ∈ fields, IsWritten field.2) : IsWritten (ofFields fields) := by
  refine .object (List.forall_mem_map.2 fun field _ => ⟨_, rfl⟩)
    (List.forall_mem_map.2 fun field hfield => h field hfield)

theorem isWritten_ofList {α : Type} {g : α → Json} {xs : List α} (h : ∀ x ∈ xs, IsWritten (g x)) :
    IsWritten (ofList g xs) :=
  .array (List.forall_mem_map.2 h)

end TvmDebug.Json
