import TvmDebug.SortedMap
/-! # Looking up what was stored

A map finds exactly its entries (`find?_eq_some_iff`), so that maps that find the same are equal
(`eq_of_find?_eq`); storing under a key changes what is found there and nowhere else
(`find?_upsert`). Storing the listing of a map gives the map (`ofList_entries`). -/
set_option autoImplicit false

namespace TvmDebug.SortedMap

variable {κ β : Type} [Ord κ]

/-! ## Storing a listing -/

theorem eq_of_entries_eq {m m' : SortedMap κ β} (h : m.entries = m'.entries) : m = m' := by
  obtain ⟨entries, ascending⟩ := m
  obtain ⟨entries', ascending'⟩ := m'
  obtain rfl : entries = entries' := h
  rfl

section Listing
variable [Std.TransOrd κ]

theorem upsertEntries_last {es : List (κ × β)} {k : κ} (h : ∀ e ∈ es, compare e.1 k = .lt)
    (f : Option β → β) : upsertEntries k f es = es ++ [(k, f none)] := by
  induction es with
  | nil => rfl
  | cons e es ih =>
    obtain ⟨k', v⟩ := e
    obtain ⟨hk, hes⟩ := List.forall_mem_cons.1 h
    have hgt : compare k k' = .gt := Std.OrientedCmp.gt_iff_lt.2 hk
    rw [upsertEntries, hgt, ih hes]
    rfl

variable [Std.LawfulEqOrd κ]

theorem entries_foldl_insert {m : SortedMap κ β} {es : List (κ × β)}
    (h : (m.entries ++ es).Pairwise fun a b => compare a.1 b.1 = .lt) :
    (es.foldl (fun m e => m.insert e.1 e.2) m).entries = m.entries ++ es := by
  induction es generalizing m with
  | nil => rw [List.foldl_nil, List.append_nil]
  | cons e es ih =>
    have hlast : (m.insert e.1 e.2).entries = m.entries ++ [e] :=
      upsertEntries_last (fun e' he' =>
        (List.pairwise_append.1 h).2.2 e' he' e List.mem_cons_self) _
    rw [List.foldl_cons, ih (by rwa [hlast, ← List.append_cons]), hlast, ← List.append_cons]

theorem ofList_entries (m : SortedMap κ β) : ofList m.entries = m := by
  have h : (ofList m.entries).entries = m.entries := entries_foldl_insert m.ascending
  exact eq_of_entries_eq h

end Listing

/-! ## Finding -/

/-- The value stored under a key in a list of entries. -/
def lookup (es : List (κ × β)) (k : κ) : Option β :=
  (es.find? fun e => compare k e.1 == .eq).map (·.2)

@[simp] theorem find?_empty (k : κ) : (empty : SortedMap κ β).find? k = none := rfl

variable [Std.LawfulEqOrd κ]

theorem lookup_cons_self (k : κ) (v : β) (es : List (κ × β)) :
    lookup ((k, v) :: es) k = some v := by
  simp [lookup]

theorem lookup_cons_ne {k k' : κ} (h : k' ≠ k) (v : β) (es : List (κ × β)) :
    lookup ((k', v) :: es) k = lookup es k := by
  simp [lookup, Ne.symm h]

theorem lookup_eq_none {es : List (κ × β)} {k : κ} (h : ∀ e ∈ es, e.1 ≠ k) :
    lookup es k = none := by
  induction es with
  | nil => rfl
  | cons e es ih =>
    rw [lookup_cons_ne (h e List.mem_cons_self)]
    exact ih fun e' he' => h e' (List.mem_cons_of_mem _ he')

theorem ne_of_compare_lt {k k' : κ} (h : compare k k' = .lt) : k ≠ k' := by
  rintro rfl
  simp at h

theorem lookup_eq_some_iff {es : List (κ × β)}
    (h : es.Pairwise fun a b => compare a.1 b.1 = .lt) (k : κ) (v : β) :
    lookup es k = some v ↔ (k, v) ∈ es := by
  induction es with
  | nil => simp [lookup]
  | cons e es ih =>
    obtain ⟨k', v'⟩ := e
    obtain ⟨hhead, hrest⟩ := List.pairwise_cons.1 h
    by_cases hk : k' = k
    · subst hk
      rw [lookup_cons_self, List.mem_cons]
      constructor
      · intro hv
        exact .inl (by rw [Option.some.inj hv])
      · rintro (hv | hmem)
        · rw [(Prod.mk.inj hv).2]
        · exact absurd rfl (ne_of_compare_lt (hhead (k', v) hmem))
    · rw [lookup_cons_ne hk, ih hrest, List.mem_cons]
      constructor
      · exact .inr
      · rintro (hv | hmem)
        · exact absurd (Prod.mk.inj hv).1.symm hk
        · exact hmem

/-- A map finds exactly its entries. -/
theorem find?_eq_some_iff (m : SortedMap κ β) (k : κ) (v : β) :
    m.find? k = some v ↔ (k, v) ∈ m.entries :=
  lookup_eq_some_iff m.ascending k v

theorem pairwise_keys_ne (m : SortedMap κ β) : m.entries.Pairwise fun a b => a.1 ≠ b.1 :=
  m.ascending.imp ne_of_compare_lt

theorem nodup_entries (m : SortedMap κ β) : m.entries.Nodup :=
  m.pairwise_keys_ne.imp fun hne heq => hne (congrArg Prod.fst heq)

theorem eq_of_find?_eq [Std.TransOrd κ] {m m' : SortedMap κ β} (h : ∀ k, m.find? k = m'.find? k) :
    m = m' := by
  have hmem : ∀ e, e ∈ m.entries ↔ e ∈ m'.entries := by
    rintro ⟨k, v⟩
    rw [← find?_eq_some_iff, ← find?_eq_some_iff, h]
  have hperm : m.entries.Perm m'.entries :=
    (List.perm_ext_iff_of_nodup m.nodup_entries m'.nodup_entries).2 hmem
  refine eq_of_entries_eq
    (hperm.eq_of_pairwise (fun e e' _ _ hlt hgt => ?_) m.ascending m'.ascending)
  exact absurd rfl (ne_of_compare_lt (Std.TransCmp.lt_trans hlt hgt))

/-! ## Storing -/

variable [Std.TransOrd κ] [DecidableEq κ]

theorem lookup_upsertEntries {es : List (κ × β)}
    (h : es.Pairwise fun a b => compare a.1 b.1 = .lt) (k k' : κ) (f : Option β → β) :
    lookup (upsertEntries k f es) k' =
      if k' = k then some (f (lookup es k)) else lookup es k' := by
  induction es with
  | nil =>
    unfold upsertEntries
    split
    · next hk => rw [hk, lookup_cons_self]; rfl
    · next hk => rw [lookup_cons_ne (Ne.symm hk)]
  | cons e es ih =>
    obtain ⟨k₀, v₀⟩ := e
    obtain ⟨hhead, hrest⟩ := List.pairwise_cons.1 h
    unfold upsertEntries
    split
    · next hlt =>
      -- The new key comes before all others, so that nothing was stored there.
      have hnone : lookup ((k₀, v₀) :: es) k = none := by
        apply lookup_eq_none
        intro e he
        rcases List.mem_cons.1 he with rfl | he
        · exact (ne_of_compare_lt hlt).symm
        · exact (ne_of_compare_lt (Std.TransCmp.lt_trans hlt (hhead e he))).symm
      split
      · next hk => rw [hk, lookup_cons_self, hnone]
      · next hk => rw [lookup_cons_ne (Ne.symm hk)]
    · next heq =>
      obtain rfl := Std.LawfulEqCmp.eq_of_compare heq
      split
      · next hk => rw [hk, lookup_cons_self, lookup_cons_self]
      · next hk => rw [lookup_cons_ne (Ne.symm hk), lookup_cons_ne (Ne.symm hk)]
    · next hgt =>
      have hne : k₀ ≠ k := ne_of_compare_lt (Std.OrientedCmp.gt_iff_lt.1 hgt)
      by_cases hk : k₀ = k'
      · subst hk
        rw [lookup_cons_self, if_neg hne, lookup_cons_self]
      · rw [lookup_cons_ne hk, ih hrest, lookup_cons_ne hne, lookup_cons_ne hk]

/-- What a key finds after something was stored. -/
theorem find?_upsert (m : SortedMap κ β) (k k' : κ) (f : Option β → β) :
    (m.upsert k f).find? k' = if k' = k then some (f (m.find? k)) else m.find? k' :=
  lookup_upsertEntries m.ascending k k' f

end TvmDebug.SortedMap
