import Mathlib.Data.List.Dedup
import Mathlib.Data.List.Induction
import Mathlib.Data.List.Perm.Basic
import TvmDebug.DebugInfo.CellMap
import TvmDebug.Proofs.SortedMap
import TvmDebug.Proofs.Text.Bytes
/-! # A cell map is what was stored last under each location

However a cell map came about (`CellMap.Stores`), it holds under each location the entry stored last
under a name of it in either case (`CellMap.find?_eq_some_iff`), and nothing else. It is listed in
the one order of its entries that ascends by the bytes of the hash and then by the offset
(`CellMap.pairwise_toEntries`), so that a map has one listing and a listing one map
(`CellMap.stores_canonical`). -/
set_option autoImplicit false

namespace TvmDebug

/-! ## Letters of either case -/

theorem toNat_toUpper (c : Char) :
    c.toUpper.toNat = if 'a' ≤ c ∧ c ≤ 'z' then c.toNat - 32 else c.toNat := by
  unfold Char.toUpper
  split
  · next h =>
    have hlower : 97 ≤ c.toNat ∧ c.toNat ≤ 122 := h
    have hupper : (c.val + ('A'.val - 'a'.val)).toNat = c.toNat - 32 := by
      rw [UInt32.toNat_add]
      show (c.toNat + 4294967264) % 2 ^ 32 = c.toNat - 32
      omega
    rw [if_pos (show 'a' ≤ c ∧ c ≤ 'z' from h)]
    exact hupper
  · next h =>
    rw [if_neg (show ¬ ('a' ≤ c ∧ c ≤ 'z') from h)]

/-- The same character, or the same ASCII letter in either case. -/
def SameLetter (c d : Char) : Prop :=
  c = d ∨ ('A' ≤ c ∧ c ≤ 'Z' ∧ d.toNat = c.toNat + 32) ∨
    ('A' ≤ d ∧ d ≤ 'Z' ∧ c.toNat = d.toNat + 32)

theorem toUpper_eq_toUpper_iff {c d : Char} : c.toUpper = d.toUpper ↔ SameLetter c d := by
  have hle : ∀ c d : Char, c ≤ d ↔ c.toNat ≤ d.toNat := fun _ _ => Iff.rfl
  have ha : 'a'.toNat = 97 := rfl
  have hz : 'z'.toNat = 122 := rfl
  have hA : 'A'.toNat = 65 := rfl
  have hZ : 'Z'.toNat = 90 := rfl
  rw [SameLetter, ← Char.toNat_inj, ← Char.toNat_inj, toNat_toUpper, toNat_toUpper]
  simp only [hle, ha, hz, hA, hZ]
  split <;> split <;> omega

theorem not_lower_of_toUpper_eq {c : Char} (h : c.toUpper = c) : ¬ ('a' ≤ c ∧ c ≤ 'z') := by
  intro hlower
  have hnat := congrArg Char.toNat h
  rw [toNat_toUpper, if_pos hlower] at hnat
  have hle : 97 ≤ c.toNat := hlower.1
  omega

theorem toList_toUpper (s : String) : s.toUpper.toList = s.toList.map Char.toUpper :=
  String.toList_map

namespace CodeLocation

/-- The same location, by names that differ in case at most. -/
def Same (l l' : CodeLocation) : Prop :=
  List.Forall₂ SameLetter l.hash.toList l'.hash.toList ∧ l.offset = l'.offset

/-- The order by the bytes of the hash and then by the offset. -/
def Precedes (l l' : CodeLocation) : Prop :=
  Text.bytes l.hash < Text.bytes l'.hash ∨ l.hash = l'.hash ∧ l.offset < l'.offset

variable {l l' : CodeLocation}

theorem upper_eq_upper_iff : l.upper = l'.upper ↔ l.Same l' := by
  have hletters : l.hash.toUpper = l'.hash.toUpper ↔
      List.Forall₂ SameLetter l.hash.toList l'.hash.toList := by
    rw [← String.toList_inj, toList_toUpper, toList_toUpper, ← List.forall₂_eq_eq_eq,
      List.forall₂_map_left_iff, List.forall₂_map_right_iff]
    simp only [toUpper_eq_toUpper_iff]
  rw [upper, upper, mk.injEq, hletters]
  rfl

theorem upper_eq {s t : String} {o : UInt32} (h : s.toList.map Char.toUpper = t.toList) :
    upper ⟨s, o⟩ = ⟨t, o⟩ := by
  have hhash : s.toUpper = t := String.toList_inj.1 ((toList_toUpper s).trans h)
  rw [upper, hhash]

theorem not_lower_of_upper_eq (h : l.upper = l) {c : Char} (hc : c ∈ l.hash.toList) :
    ¬ ('a' ≤ c ∧ c ≤ 'z') := by
  have hhash : l.hash.toUpper = l.hash := congrArg hash h
  have hletters : l.hash.toList.map Char.toUpper = l.hash.toList.map id := by
    rw [← toList_toUpper, hhash, List.map_id]
  exact not_lower_of_toUpper_eq (List.map_inj_left.1 hletters c hc)

theorem precedes_of_compare_lt (h : compare l l' = .lt) : l.Precedes l' := by
  have hlex : (compare l.hash l'.hash).then (compare l.offset l'.offset) = .lt := h
  rcases Ordering.then_eq_lt.1 hlex with hhash | ⟨hhash, hoffset⟩
  · exact .inl (Text.bytes_lt_bytes (compareOfLessAndEq_eq_lt.1 hhash))
  · exact .inr ⟨Std.LawfulEqOrd.eq_of_compare hhash, Std.compare_eq_lt.1 hoffset⟩

theorem Precedes.asymm (h : l.Precedes l') : ¬ l'.Precedes l := by
  rintro (hback | ⟨hhash, hback⟩)
  · rcases h with hlt | ⟨heq, -⟩
    · exact List.lt_asymm hlt hback
    · rw [heq] at hback
      exact List.lt_irrefl _ hback
  · rcases h with hlt | ⟨-, hlt⟩
    · rw [hhash] at hlt
      exact List.lt_irrefl _ hlt
    · exact UInt32.lt_asymm hlt hback

end CodeLocation

namespace CellMap

variable {m : CellMap} {es : List (CodeLocation × CellEntry)} {l l' : CodeLocation} {e : CellEntry}

/-! ## Storing a listing -/

theorem cells_foldl_insert (h : ∀ e ∈ es, e.1.upper = e.1) :
    (es.foldl (fun m e => m.insert e.1 e.2) m).cells =
      es.foldl (fun m e => m.insert e.1 e.2) m.cells := by
  induction es generalizing m with
  | nil => rfl
  | cons e es ih =>
    obtain ⟨he, hes⟩ := List.forall_mem_cons.1 h
    have hcells : (m.insert e.1 e.2).cells = m.cells.insert e.1 e.2 := by
      rw [insert]
      dsimp only
      rw [he]
    rw [List.foldl_cons, List.foldl_cons, ih hes, hcells]

theorem eq_of_cells_eq {m m' : CellMap} (h : m.cells = m'.cells) : m = m' := by
  obtain ⟨cells, upper⟩ := m
  obtain ⟨cells', upper'⟩ := m'
  obtain rfl : cells = cells' := h
  rfl

theorem ofEntries_toEntries (m : CellMap) : ofEntries m.toEntries = m := by
  -- Storing puts hashes into upper case, which those of the entries of a map are in already.
  have h : (ofEntries m.toEntries).cells = m.cells :=
    (cells_foldl_insert m.upper).trans m.cells.ofList_entries
  exact eq_of_cells_eq h

/-! ## What was stored -/

/-- These entries were stored in turn, one by one or as a list. -/
inductive Stores : List (CodeLocation × CellEntry) → CellMap → Prop
  | empty : Stores [] empty
  | ofEntries (es : List (CodeLocation × CellEntry)) : Stores es (ofEntries es)
  | insert (es : List (CodeLocation × CellEntry)) (m : CellMap) (l : CodeLocation) (e : CellEntry)
      (h : Stores es m) : Stores (es ++ [(l, e)]) (m.insert l e)

/-- Of the entries for names of location `l`, which is in upper case, `e` is the last one. -/
def LastFor (es : List (CodeLocation × CellEntry)) (l : CodeLocation) (e : CellEntry) : Prop :=
  ∃ before name after, es = before ++ (name, e) :: after ∧ name.upper = l ∧
    ∀ w ∈ after, w.1.upper ≠ l

theorem ofEntries_append_singleton (es : List (CodeLocation × CellEntry)) (l : CodeLocation)
    (e : CellEntry) : CellMap.ofEntries (es ++ [(l, e)]) = (CellMap.ofEntries es).insert l e :=
  List.foldl_append

theorem Stores.eq_ofEntries (h : Stores es m) : m = CellMap.ofEntries es := by
  induction h with
  | empty => rfl
  | ofEntries es => rfl
  | insert es m l e h ih => rw [ofEntries_append_singleton, ih]

theorem resolve_insert (m : CellMap) (l l' : CodeLocation) (e : CellEntry) :
    (m.insert l e).resolve l' = if l'.upper = l.upper then some e else m.resolve l' :=
  SortedMap.find?_upsert m.cells l.upper l'.upper fun _ => e

/-- What a map finds is the first entry for a location from the end. -/
theorem find?_ofEntries (es : List (CodeLocation × CellEntry)) (l : CodeLocation) :
    (CellMap.ofEntries es).cells.find? l =
      (es.reverse.find? fun w => w.1.upper == l).map (·.2) := by
  induction es using List.reverseRecOn with
  | nil => rfl
  | append_singleton es w ih =>
    have hinsert : ((CellMap.ofEntries es).insert w.1 w.2).cells.find? l =
        if l = w.1.upper then some w.2 else (CellMap.ofEntries es).cells.find? l :=
      SortedMap.find?_upsert _ _ _ _
    rw [ofEntries_append_singleton, hinsert, ih, List.reverse_append, List.reverse_singleton,
      List.singleton_append, List.find?_cons]
    by_cases hw : w.1.upper = l
    · simp [hw]
    · have hbeq : (w.1.upper == l) = false := beq_eq_false_iff_ne.2 hw
      rw [if_neg (Ne.symm hw), hbeq]

theorem find?_eq_some_iff :
    (CellMap.ofEntries es).cells.find? l = some e ↔ LastFor es l e := by
  rw [find?_ofEntries, Option.map_eq_some_iff]
  constructor
  · rintro ⟨⟨name, e'⟩, hfind, rfl⟩
    obtain ⟨hname, after, before, hsplit, hafter⟩ := List.find?_eq_some_iff_append.1 hfind
    refine ⟨before.reverse, name, after.reverse, ?_, beq_iff_eq.1 hname, fun w hw => ?_⟩
    · rw [← List.reverse_reverse es, hsplit]
      simp
    · simpa using hafter w (List.mem_reverse.1 hw)
  · rintro ⟨before, name, after, rfl, hname, hafter⟩
    refine ⟨(name, e), List.find?_eq_some_iff_append.2 ⟨beq_iff_eq.2 hname, after.reverse,
      before.reverse, by simp, fun w hw => ?_⟩, rfl⟩
    simpa using hafter w (List.mem_reverse.1 hw)

theorem mem_toEntries_iff : (l, e) ∈ (CellMap.ofEntries es).toEntries ↔ LastFor es l e := by
  rw [← find?_eq_some_iff]
  exact (SortedMap.find?_eq_some_iff _ l e).symm

/-- Each location for which something was stored has an entry. -/
theorem mem_keys_iff :
    l ∈ (CellMap.ofEntries es).toEntries.map (·.1) ↔ l ∈ es.map fun w => w.1.upper := by
  rw [List.mem_map, List.mem_map]
  constructor
  · rintro ⟨⟨l', e⟩, hmem, rfl⟩
    obtain ⟨before, name, after, rfl, hname, -⟩ := mem_toEntries_iff.1 hmem
    exact ⟨(name, e), by simp, hname⟩
  · rintro ⟨w, hw, rfl⟩
    have hsome : (es.reverse.find? fun v => v.1.upper == w.1.upper).isSome :=
      List.find?_isSome.2 ⟨w, List.mem_reverse.2 hw, beq_self_eq_true _⟩
    obtain ⟨v, hv⟩ := Option.isSome_iff_exists.1 hsome
    have hfind : (CellMap.ofEntries es).cells.find? w.1.upper = some v.2 := by
      rw [find?_ofEntries, hv]
      rfl
    exact ⟨(w.1.upper, v.2), mem_toEntries_iff.2 (find?_eq_some_iff.1 hfind), rfl⟩

/-! ## The one listing -/

theorem pairwise_toEntries (m : CellMap) :
    m.toEntries.Pairwise fun v w => v.1.Precedes w.1 :=
  m.cells.ascending.imp CodeLocation.precedes_of_compare_lt

theorem size_ofEntries (es : List (CodeLocation × CellEntry)) :
    (CellMap.ofEntries es).size = (es.map fun w => w.1.upper).dedup.length := by
  have hkeys : ((CellMap.ofEntries es).toEntries.map (·.1)).Nodup :=
    List.pairwise_map.2 (CellMap.ofEntries es).cells.pairwise_keys_ne
  have hperm := (List.perm_ext_iff_of_nodup hkeys (List.nodup_dedup (es.map fun w => w.1.upper))).2
    fun l => mem_keys_iff.trans List.mem_dedup.symm
  rw [← hperm.length_eq, List.length_map]
  rfl

/-- **The canonical listing of a cell map.** -/
theorem stores_canonical (h : Stores es m) :
    (∀ w ∈ m.toEntries, ∀ c ∈ w.1.hash.toList, ¬ ('a' ≤ c ∧ c ≤ 'z')) ∧
    (∀ l e l', (l.Same l' → (m.insert l e).resolve l' = some e) ∧
      (¬ l.Same l' → (m.insert l e).resolve l' = m.resolve l')) ∧
    m.size = (es.map fun w => w.1.upper).dedup.length ∧
    m.toEntries.Pairwise (fun v w => v.1.Precedes w.1) ∧
    (∀ listing, listing.Perm m.toEntries → listing.Pairwise (fun v w => v.1.Precedes w.1) →
      listing = m.toEntries) ∧
    CellMap.ofEntries m.toEntries = m ∧
    (∀ l e, (l, e) ∈ m.toEntries ↔ LastFor es l e) ∧
    (CellMap.ofEntries m.toEntries).toEntries = m.toEntries ∧
    m.toEntries = (CellMap.ofEntries es).toEntries := by
  have heq := h.eq_ofEntries
  refine ⟨fun w hw c hc => CodeLocation.not_lower_of_upper_eq (m.upper w hw) hc,
    fun l e l' => ⟨fun hsame => ?_, fun hother => ?_⟩, ?_, pairwise_toEntries m,
    fun listing hperm hlisting => ?_, ofEntries_toEntries m, fun l e => ?_,
    by rw [ofEntries_toEntries], by rw [heq]⟩
  · rw [resolve_insert, if_pos (CodeLocation.upper_eq_upper_iff.2 hsame).symm]
  · rw [resolve_insert, if_neg fun heq => hother (CodeLocation.upper_eq_upper_iff.1 heq.symm)]
  · rw [heq]
    exact size_ofEntries es
  · refine List.Perm.eq_of_pairwise (fun v w _ _ hvw hwv => ?_) hlisting (pairwise_toEntries m)
      hperm
    exact absurd hwv hvw.asymm
  · rw [heq]
    exact mem_toEntries_iff

/-- Two entries for one location, under names that differ in case, and one for another. -/
def mixedCase : List (CodeLocation × CellEntry) :=
  [(⟨"fe", 8⟩, ⟨[], 0⟩), (⟨"ab", 0⟩, ⟨[], 1⟩), (⟨"Fe", 8⟩, ⟨[], 2⟩)]

/-- Of the entries of one location the one stored last is listed, and found by any of its names;
what the entry of another location finds is as before. -/
theorem stores_canonical_mixed_case :
    let m := CellMap.ofEntries mixedCase
    let m' := m.insert ⟨"fE", 8⟩ ⟨[], 3⟩
    m'.size = 2 ∧ (⟨"FE", 8⟩, ⟨[], 3⟩) ∈ m'.toEntries ∧
      m'.resolve ⟨"FE", 8⟩ = some ⟨[], 3⟩ ∧ m'.resolve ⟨"Ab", 0⟩ = m.resolve ⟨"Ab", 0⟩ := by
  intro m m'
  have hbefore : Stores mixedCase m := .ofEntries mixedCase
  obtain ⟨-, hresolve, -⟩ := stores_canonical hbefore
  have hafter : Stores (mixedCase ++ [(⟨"fE", 8⟩, ⟨[], 3⟩)]) m' := .insert _ _ _ _ hbefore
  obtain ⟨-, -, hsize, -, -, -, hlast, -⟩ := stores_canonical hafter
  have hname : (⟨"fE", 8⟩ : CodeLocation).upper = ⟨"FE", 8⟩ :=
    CodeLocation.upper_eq (by decide)
  have hkeys : mixedCase.map (fun w => w.1.upper) = [⟨"FE", 8⟩, ⟨"AB", 0⟩, ⟨"FE", 8⟩] := by
    rw [mixedCase, List.map_cons, List.map_cons, List.map_singleton,
      CodeLocation.upper_eq (show "fe".toList.map Char.toUpper = "FE".toList by decide),
      CodeLocation.upper_eq (show "ab".toList.map Char.toUpper = "AB".toList by decide),
      CodeLocation.upper_eq (show "Fe".toList.map Char.toUpper = "FE".toList by decide)]
  have hsame : (⟨"fE", 8⟩ : CodeLocation).Same ⟨"FE", 8⟩ := by
    refine CodeLocation.upper_eq_upper_iff.1 ?_
    rw [← hname, CodeLocation.upper_upper]
  have hother : ¬ (⟨"fE", 8⟩ : CodeLocation).Same ⟨"Ab", 0⟩ := fun h => absurd h.2 (by decide)
  refine ⟨?_, (hlast _ _).2 ⟨mixedCase, _, [], rfl, hname, by simp⟩,
    (hresolve _ _ _).1 hsame, (hresolve _ _ _).2 hother⟩
  rw [hsize, List.map_append, hkeys, List.map_singleton, hname]
  decide

end CellMap

end TvmDebug
