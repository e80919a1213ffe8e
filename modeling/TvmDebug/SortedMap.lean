/-!
# Maps listed by ascending key

* `SortedMap κ β`: finitely many entries, their keys strictly ascending, so that a map has one
  listing and two maps with the same entries are equal.
* `SortedMap.find?`: the value stored under a key.
* `SortedMap.upsert`: stores under a key what a function makes of the value stored there before;
  `SortedMap.insert` and `SortedMap.ofList` (the last entry of a key wins) come from it.
-/
set_option autoImplicit false

namespace TvmDebug

/-- A finite map, listed by strictly ascending key. -/
structure SortedMap (κ β : Type) [Ord κ] where
  entries : List (κ × β)
  ascending : entries.Pairwise fun a b => compare a.1 b.1 = .lt

namespace SortedMap

variable {κ β : Type} [Ord κ]

/-! ## Storing in a list of entries -/

/-- Stores `f` of the old value under `k`, at the place of `k` in the order. -/
def upsertEntries (k : κ) (f : Option β → β) : List (κ × β) → List (κ × β)
  | [] => [(k, f none)]
  | (k', v) :: rest =>
    match compare k k' with
    | .lt => (k, f none) :: (k', v) :: rest
    | .eq => (k, f (some v)) :: rest
    | .gt => (k', v) :: upsertEntries k f rest

theorem key_of_mem_upsertEntries (k : κ) (f : Option β → β) (es : List (κ × β)) :
    ∀ e ∈ upsertEntries k f es, e.1 = k ∨ ∃ e' ∈ es, e'.1 = e.1 := by
  induction es with
  | nil => simp [upsertEntries]
  | cons head rest ih =>
    obtain ⟨k', v⟩ := head
    intro e he
    unfold upsertEntries at he
    split at he
    · rcases List.mem_cons.1 he with rfl | he
      · exact .inl rfl
      · exact .inr ⟨e, he, rfl⟩
    · rcases List.mem_cons.1 he with rfl | he
      · exact .inl rfl
      · exact .inr ⟨e, List.mem_cons_of_mem _ he, rfl⟩
    · rcases List.mem_cons.1 he with rfl | he
      · exact .inr ⟨_, List.mem_cons_self, rfl⟩
      · rcases ih e he with h | ⟨e', he', h⟩
        · exact .inl h
        · exact .inr ⟨e', List.mem_cons_of_mem _ he', h⟩

theorem pairwise_upsertEntries [Std.TransOrd κ] [Std.LawfulEqOrd κ] (k : κ) (f : Option β → β)
    {es : List (κ × β)} (h : es.Pairwise fun a b => compare a.1 b.1 = .lt) :
    (upsertEntries k f es).Pairwise fun a b => compare a.1 b.1 = .lt := by
  induction es with
  | nil => simp [upsertEntries]
  | cons head rest ih =>
    obtain ⟨k', v⟩ := head
    obtain ⟨hhead, hrest⟩ := List.pairwise_cons.1 h
    unfold upsertEntries
    split
    · next hlt =>
      refine List.pairwise_cons.2 ⟨fun e he => ?_, h⟩
      rcases List.mem_cons.1 he with rfl | he
      · exact hlt
      · exact Std.TransCmp.lt_trans hlt (hhead e he)
    · next heq =>
      obtain rfl := Std.LawfulEqCmp.eq_of_compare heq
      exact List.pairwise_cons.2 ⟨fun e he => hhead e he, hrest⟩
    · next hgt =>
      refine List.pairwise_cons.2 ⟨fun e he => ?_, ih hrest⟩
      rcases key_of_mem_upsertEntries k f rest e he with hk | ⟨e', he', hk⟩
      · rw [hk]
        exact Std.OrientedCmp.gt_iff_lt.1 hgt
      · rw [← hk]
        exact hhead e' he'

/-! ## Maps -/

def empty : SortedMap κ β := ⟨[], List.Pairwise.nil⟩

instance : Inhabited (SortedMap κ β) := ⟨empty⟩

def size (m : SortedMap κ β) : Nat := m.entries.length

def keys (m : SortedMap κ β) : List κ := m.entries.map (·.1)

def find? (m : SortedMap κ β) (k : κ) : Option β :=
  (m.entries.find? fun e => compare k e.1 == .eq).map (·.2)

variable [Std.TransOrd κ] [Std.LawfulEqOrd κ]

/-- Stores `f` of the value stored under `k` before. -/
def upsert (m : SortedMap κ β) (k : κ) (f : Option β → β) : SortedMap κ β :=
  ⟨upsertEntries k f m.entries, pairwise_upsertEntries k f m.ascending⟩

def insert (m : SortedMap κ β) (k : κ) (v : β) : SortedMap κ β := m.upsert k fun _ => v

/-- Entries are stored in turn, so that the last one of a key wins. -/
def ofList (es : List (κ × β)) : SortedMap κ β :=
  es.foldl (fun m e => m.insert e.1 e.2) empty

end SortedMap

end TvmDebug
