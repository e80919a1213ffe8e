import Mathlib.Data.List.Forall2
import TvmDebug.Proofs.Json.Fields
/-! # Spellings of a record

A record may be written as an object, whose members stand in any order and among others, or as the
list of its fields, of which the last ones may be left out (`IsRecord`). `fields?` finds the fields
of exactly these spellings (`fields?_eq_some_iff`).

A field that is left out has its default (`orElse_or`, `nullable_or`). So what a reader of records
reads depends on nothing but the fields, once those left out are filled in (`ReadsByFields`). -/
set_option autoImplicit false

namespace TvmDebug.Json

/-! ## What is read for each of some values -/

section Each
variable {α β : Type}

theorem mapM_eq_some_iff {f : α → Option β} {xs : List α} {ys : List β} :
    xs.mapM f = some ys ↔ List.Forall₂ (fun x y => f x = some y) xs ys := by
  induction xs generalizing ys with
  | nil =>
    rw [List.mapM_nil, List.forall₂_nil_left_iff]
    exact ⟨fun h => (Option.some.inj h).symm, fun h => h ▸ rfl⟩
  | cons x xs ih =>
    simp only [List.mapM_cons, Option.bind_eq_bind, Option.bind_eq_some_iff, ih,
      List.forall₂_cons_left_iff]
    constructor
    · rintro ⟨y, hx, ys', hxs, h⟩
      exact ⟨y, ys', hx, hxs, (Option.some.inj h).symm⟩
    · rintro ⟨y, ys', hx, hxs, rfl⟩
      exact ⟨y, hx, ys', hxs, rfl⟩

theorem exists_of_forall₂ {R : α → β → Prop} {xs : List α} {ys : List β}
    (h : List.Forall₂ R xs ys) {y : β} (hy : y ∈ ys) : ∃ x ∈ xs, R x y := by
  induction h with
  | nil => exact absurd hy List.not_mem_nil
  | @cons x _ xs _ hx _ ih =>
    obtain rfl | hy := List.mem_cons.1 hy
    · exact ⟨x, List.mem_cons_self, hx⟩
    · obtain ⟨x', hx', hR⟩ := ih hy
      exact ⟨x', List.mem_cons_of_mem _ hx', hR⟩

end Each

/-! ## Members of an object -/

/-- The member with its key as a text. -/
def Names (m named : List Char × Json) : Prop := unescape? m.1 = some named.1 ∧ named.2 = m.2

/-- What the members of an object say of a field: nothing, or its value, and that only once. -/
inductive Gives (members : List (List Char × Json)) (name : String) : Option Json → Prop
  | nothing (h : ∀ m ∈ members, m.1 ≠ name.toList) : Gives members name none
  | once {others : List (List Char × Json)} {j : Json}
      (hmembers : members.Perm ((name.toList, j) :: others))
      (hothers : ∀ m ∈ others, m.1 ≠ name.toList) : Gives members name (some j)

/-- The spellings of the record whose fields, under `names`, have the given values. -/
inductive IsRecord (names : List String) : List (Option Json) → Json → Prop
  | object {members named : List (List Char × Json)} {given : List (Option Json)}
      (hnamed : List.Forall₂ Names members named)
      (hgiven : List.Forall₂ (Gives named) names given) : IsRecord names given (.object members)
  | list {items : List Json} {left : Nat} (h : items.length + left = names.length) :
      IsRecord names (items.map some ++ List.replicate left none) (.array items)

theorem named?_eq_some_iff {members named : List (List Char × Json)} :
    named? members = some named ↔ List.Forall₂ Names members named := by
  have hname : ∀ m n : List Char × Json,
      (unescape? m.1).map (fun key => (key, m.2)) = some n ↔ Names m n := by
    intro m n
    rw [Option.map_eq_some_iff, Names]
    constructor
    · rintro ⟨key, hkey, rfl⟩
      exact ⟨hkey, rfl⟩
    · rintro ⟨hkey, hvalue⟩
      exact ⟨n.1, hkey, Prod.ext rfl hvalue.symm⟩
  rw [named?, mapM_eq_some_iff]
  simp only [hname]

section Member
variable {members : List (List Char × Json)} {name : String} {given : Option Json}

theorem filter_name_eq_nil_iff :
    members.filter (fun m => m.1 == name.toList) = [] ↔ ∀ m ∈ members, m.1 ≠ name.toList := by
  simp [List.filter_eq_nil_iff]

theorem Gives.filter_eq (h : Gives members name given) :
    members.filter (fun m => m.1 == name.toList) = (given.map (name.toList, ·)).toList := by
  cases h with
  | nothing h => exact filter_name_eq_nil_iff.2 h
  | once hmembers hothers =>
    have hperm := hmembers.filter fun m => m.1 == name.toList
    rw [List.filter_cons, if_pos (beq_self_eq_true _), filter_name_eq_nil_iff.2 hothers] at hperm
    exact List.perm_singleton.1 hperm

theorem member?_eq_some_iff : member? members name = some given ↔ Gives members name given := by
  constructor
  · intro h
    unfold member? at h
    split at h
    · next hnone =>
      obtain rfl := Option.some.inj h
      exact .nothing (filter_name_eq_nil_iff.1 hnone)
    · next m hone =>
      obtain rfl := Option.some.inj h
      have hmem : m ∈ members.filter fun m => m.1 == name.toList :=
        hone ▸ List.mem_singleton_self m
      have hm : m.1 = name.toList := beq_iff_eq.1 (List.mem_filter.1 hmem).2
      have hperm := List.filter_append_perm (fun m => m.1 == name.toList) members
      rw [hone, List.singleton_append] at hperm
      have hself : (name.toList, m.2) = m := Prod.ext hm.symm rfl
      refine .once (hself ▸ hperm.symm) fun m' hm' => ?_
      simpa using (List.mem_filter.1 hm').2
    · cases h
  · intro h
    rw [member?, h.filter_eq]
    cases given <;> rfl

end Member

/-! ## Records -/

section Record
variable {names : List String} {given : List (Option Json)} {j : Json}

theorem fields?_eq_some_iff : fields? names j = some given ↔ IsRecord names given j := by
  constructor
  · intro h
    cases j with
    | object members =>
      obtain ⟨named, hnamed, hgiven⟩ := Option.bind_eq_some_iff.1 h
      refine .object (named?_eq_some_iff.1 hnamed) ((mapM_eq_some_iff.1 hgiven).imp ?_)
      exact fun _ _ => member?_eq_some_iff.1
    | array items =>
      obtain ⟨hle, hgiven⟩ := Option.ite_none_right_eq_some.1 h
      obtain rfl := Option.some.inj hgiven
      exact .list (Nat.add_sub_cancel' hle)
    | _ => cases h
  · intro h
    cases h with
    | object hnamed hgiven =>
      rw [fields?, named?_eq_some_iff.2 hnamed]
      exact mapM_eq_some_iff.2 (hgiven.imp fun _ _ => member?_eq_some_iff.2)
    | @list items left hlength =>
      have hleft : names.length - items.length = left := by omega
      rw [fields?, if_pos (by omega), hleft]

theorem IsRecord.length_eq (h : IsRecord names given j) : given.length = names.length := by
  cases h with
  | object _ hgiven => exact hgiven.length_eq.symm
  | list hlength => simpa using hlength

end Record

/-! ## Fields that are left out -/

section Default
variable {α : Type} {f : Json → Option α}

theorem orElse_or {d : α} {j : Json} (h : f j = some d) (field : Option Json) :
    orElse d f (field.or (some j)) = orElse d f field := by
  cases field with
  | none => exact h
  | some j => rfl

theorem nullable_or (field : Option Json) :
    nullable f (field.or (some .null)) = nullable f field := by
  cases field with
  | none => rfl
  | some j => rfl

/-- The fields of a record, those left out as `defaults` has them. -/
def fillIn (defaults given : List (Option Json)) : List (Option Json) :=
  List.zipWith Option.or given defaults

/-- Two spellings of a record are read alike if their fields are the same, those left out being
filled in. -/
def ReadsByFields (ofJson? : Json → Option α) (names : List String)
    (defaults : List (Option Json)) : Prop :=
  ∀ given given' j j', IsRecord names given j → IsRecord names given' j' →
    fillIn defaults given = fillIn defaults given' → ofJson? j = ofJson? j'

theorem readsByFields_of {ofJson? : Json → Option α} {names : List String}
    {defaults : List (Option Json)} {read : List (Option Json) → Option α}
    (hread : ∀ j, ofJson? j = (fields? names j).bind read)
    (hdefaults : ∀ given, given.length = names.length → read (fillIn defaults given) = read given) :
    ReadsByFields ofJson? names defaults := by
  intro given given' j j' h h' hfill
  calc ofJson? j = read given := by rw [hread, fields?_eq_some_iff.2 h, Option.bind_some]
    _ = read given' := by
      rw [← hdefaults given h.length_eq, hfill, hdefaults given' h'.length_eq]
    _ = ofJson? j' := by rw [hread, fields?_eq_some_iff.2 h', Option.bind_some]

end Default

/-! ## Nesting of what is read -/

section Depth
variable {α : Type}

theorem exists_of_list? {f : Json → Option α} {j : Json} {xs : List α}
    (h : list? f j = some xs) :
    ∃ n, j.depth = n + 1 ∧ ∀ x ∈ xs, ∃ item, item.depth ≤ n ∧ f item = some x := by
  cases j with
  | array items =>
    refine ⟨depthItems items, by rw [depth], fun x hx => ?_⟩
    obtain ⟨item, hitem, hf⟩ := exists_of_forall₂ (mapM_eq_some_iff.1 h) hx
    exact ⟨item, depthItems_le_iff.1 (Nat.le_refl _) item hitem, hf⟩
  | _ => cases h

theorem depth_le_of_fields? {names : List String} {j : Json} {given : List (Option Json)}
    (h : fields? names j = some given) {x : Json} (hx : some x ∈ given) :
    x.depth + 1 ≤ j.depth := by
  cases fields?_eq_some_iff.1 h with
  | object hnamed hgiven =>
    obtain ⟨name, -, hgives⟩ := exists_of_forall₂ hgiven hx
    cases hgives with
    | once hmembers _ =>
      obtain ⟨m, hm, -, rfl⟩ := exists_of_forall₂ hnamed (hmembers.symm.subset List.mem_cons_self)
      exact depth_le_of_mem_members hm
  | list _ =>
    obtain hmem | hleft := List.mem_append.1 hx
    · obtain ⟨item, hitem, hsome⟩ := List.mem_map.1 hmem
      obtain rfl := Option.some.inj hsome
      exact depth_le_of_mem_items hitem
    · exact absurd (List.eq_of_mem_replicate hleft) nofun

theorem depth_of_tagged? {tag : String} {kind? : Json → Option String} {j fields : Json}
    {kind : String} (h : j.tagged? tag kind? = some (kind, fields)) :
    1 ≤ fields.depth ∧ fields.depth ≤ j.depth := by
  unfold tagged? at h
  split at h
  · next members =>
    rw [Option.bind_eq_bind, Option.bind_eq_some_iff] at h
    obtain ⟨named, -, h⟩ := h
    rw [Option.bind_eq_bind, Option.bind_eq_some_iff] at h
    obtain ⟨value, -, h⟩ := h
    rw [Option.bind_eq_bind, Option.bind_eq_some_iff] at h
    obtain ⟨kind', -, h⟩ := h
    obtain ⟨rfl, rfl⟩ := Prod.mk.inj (Option.some.inj h)
    exact ⟨Nat.succ_pos _, Nat.le_refl _⟩
  · next value items =>
    rw [Option.bind_eq_bind, Option.bind_eq_some_iff] at h
    obtain ⟨kind', -, h⟩ := h
    obtain ⟨rfl, rfl⟩ := Prod.mk.inj (Option.some.inj h)
    rw [depth, depth, depthItems]
    omega
  · cases h

end Depth

end TvmDebug.Json
