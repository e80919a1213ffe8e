import Mathlib.Data.List.Induction
import TvmDebug.Proofs.Toml.Grammar
/-! # Tables are filled as they are defined

Each definition of a document changes the tables of those before it in one way at most
(`Definition.define`), and does so in a place by itself (`Definition.set`). What a place holds after
a further definition is then what the grammar says of all its definitions
(`Definition.definesTable_concat`), and so a table is defined exactly when all its definitions,
one after the other, make it of the empty one (`definesTable_iff_foldlM`). The ways in which the
reader adds to its tables are such changes (`Entries.putDotted_eq`, `Entries.within_eq`). -/
set_option autoImplicit false

namespace TvmDebug.Toml

/-! ## Keys and their values -/

theorem eraseDups_concat (ks : List String) (k : String) :
    (ks ++ [k]).eraseDups = if k ∈ ks then ks.eraseDups else ks.eraseDups ++ [k] := by
  rw [List.eraseDups_append]
  split
  · next hk => simp [List.removeAll, hk]
  · next hk => simp [List.removeAll, hk, List.eraseDups_cons]

theorem nodup_eraseDups (ks : List String) : ks.eraseDups.Nodup := by
  induction ks using List.reverseRecOn with
  | nil => exact List.nodup_nil
  | append_singleton ks k ih =>
    rw [eraseDups_concat]
    split
    · exact ih
    · next hk =>
      refine List.nodup_append.2 ⟨ih, List.pairwise_singleton _ k, fun a ha b hb heq => hk ?_⟩
      rwa [← List.mem_singleton.1 hb, ← heq, ← List.mem_eraseDups]

namespace Entries

section Lookup
variable {k k' : String} {v : Toml} {es es' : Entries}

theorem lookup_ne (h : k ≠ k') (v : Toml) (es : Entries) :
    ((k', v) :: es).lookup k = es.lookup k := by
  rw [List.lookup_cons, beq_eq_false_iff_ne.2 h]

theorem lookup_isSome_iff : (es.lookup k).isSome = true ↔ k ∈ es.map Prod.fst := by
  induction es with
  | nil => simp
  | cons e es ih =>
    obtain ⟨k', v⟩ := e
    rw [List.map_cons, List.mem_cons, ← ih]
    by_cases hk : k = k'
    · subst hk
      simp
    · rw [lookup_ne hk]
      exact (or_iff_right hk).symm

theorem lookup_eq_none (h : k ∉ es.map Prod.fst) : es.lookup k = none :=
  Option.not_isSome_iff_eq_none.1 (mt lookup_isSome_iff.1 h)

theorem lookup_eq_some_iff (h : (es.map Prod.fst).Nodup) : es.lookup k = some v ↔ (k, v) ∈ es := by
  induction es with
  | nil => simp
  | cons e es ih =>
    obtain ⟨k', v'⟩ := e
    rw [List.map_cons, List.nodup_cons] at h
    rw [List.mem_cons, Prod.mk.injEq]
    by_cases hk : k = k'
    · subst hk
      have hmem : (k, v) ∉ es := fun hmem => h.1 (List.mem_map.2 ⟨_, hmem, rfl⟩)
      simp [hmem, eq_comm]
    · rw [lookup_ne hk, ih h.2]
      exact (or_iff_right fun heq => hk heq.1).symm

/-- Entries are told by the order of their keys and the value of each. -/
theorem ext_of_lookup (hkeys : es.map Prod.fst = es'.map Prod.fst) (h : (es.map Prod.fst).Nodup)
    (hlookup : ∀ k, es.lookup k = es'.lookup k) : es = es' := by
  induction es generalizing es' with
  | nil => exact (List.map_eq_nil_iff.1 hkeys.symm).symm
  | cons e es ih =>
    obtain ⟨k, v⟩ := e
    cases es' with
    | nil => cases hkeys
    | cons e' es' =>
      obtain ⟨k', v'⟩ := e'
      obtain ⟨hk, htail⟩ : k = k' ∧ es.map Prod.fst = es'.map Prod.fst := List.cons.inj hkeys
      subst hk
      rw [List.map_cons, List.nodup_cons] at h
      have hv : v = v' := by simpa using hlookup k
      have hes : es = es' := by
        refine ih htail h.2 fun j => ?_
        by_cases hj : j = k
        · subst hj
          rw [lookup_eq_none h.1, lookup_eq_none (htail ▸ h.1)]
        · have hlast := hlookup j
          rwa [lookup_ne hj, lookup_ne hj] at hlast
      rw [hv, hes]

theorem lookup_filterMap (f : String → Option Toml) (ks : List String) (k : String) :
    (ks.filterMap fun k => (f k).map (k, ·)).lookup k = if k ∈ ks then f k else none := by
  induction ks with
  | nil => rfl
  | cons k' ks ih =>
    rw [List.filterMap_cons]
    by_cases hk : k = k'
    · subst hk
      rw [if_pos List.mem_cons_self]
      cases hv : f k with
      | none => simp [ih, hv]
      | some v => simp
    · have hmem : k ∈ k' :: ks ↔ k ∈ ks := by simp [hk]
      simp only [hmem]
      cases hv : f k' with
      | none => exact ih
      | some v => exact (lookup_ne hk v _).trans ih

/-- Each of the keys can be given a value of its own. -/
theorem exists_of_lookup {ks : List String} {f : String → Option Toml}
    (h : ∀ k, (f k).isSome = true ↔ k ∈ ks) :
    ∃ es : Entries, es.map Prod.fst = ks ∧ ∀ k, es.lookup k = f k := by
  refine ⟨ks.filterMap fun k => (f k).map (k, ·), ?_, fun k => ?_⟩
  · have hall := fun k hk => (h k).2 hk
    clear h
    induction ks with
    | nil => rfl
    | cons k ks ih =>
      obtain ⟨v, hv⟩ := Option.isSome_iff_exists.1 (hall k List.mem_cons_self)
      rw [List.filterMap_cons, hv, Option.map_some]
      exact congrArg (k :: ·) (ih fun k' hk' => hall k' (List.mem_cons_of_mem k hk'))
  · rw [lookup_filterMap]
    split
    · rfl
    · next hk => exact (Option.not_isSome_iff_eq_none.1 (mt (h k).1 hk)).symm

end Lookup

/-! ## Changing the value of a key -/

section Write
variable {k : String} {v : Toml} {es es' : Entries}

/-- The key has the value, in the place of the one before if there is one. -/
def write (k : String) (v : Toml) : Entries → Entries
  | [] => [(k, v)]
  | (k', v') :: es => if k = k' then (k', v) :: es else (k', v') :: write k v es

theorem change_eq (f : Option Toml → Option Toml) :
    change k f es = (f (es.lookup k)).map fun v => write k v es := by
  induction es with
  | nil => rfl
  | cons e es ih =>
    obtain ⟨k', v'⟩ := e
    rw [change]
    by_cases hk : k = k'
    · subst hk
      simp only [List.lookup_cons_self, write, if_true]
    · rw [if_neg hk, ih, lookup_ne hk, Option.map_map]
      simp only [write, if_neg hk]
      rfl

theorem map_fst_write :
    (write k v es).map Prod.fst =
      if k ∈ es.map Prod.fst then es.map Prod.fst else es.map Prod.fst ++ [k] := by
  induction es with
  | nil => rfl
  | cons e es ih =>
    obtain ⟨k', v'⟩ := e
    by_cases hk : k = k'
    · subst hk
      simp [write]
    · have hmem : k ∈ k' :: es.map Prod.fst ↔ k ∈ es.map Prod.fst := by simp [hk]
      rw [write, if_neg hk, List.map_cons, List.map_cons, ih]
      simp only [hmem, apply_ite (k' :: ·)]
      rfl

theorem lookup_write (j : String) :
    (write k v es).lookup j = if j = k then some v else es.lookup j := by
  induction es with
  | nil =>
    by_cases hj : j = k
    · subst hj
      simp [write]
    · rw [write, lookup_ne hj, if_neg hj]
  | cons e es ih =>
    obtain ⟨k', v'⟩ := e
    by_cases hk : k = k'
    · subst hk
      rw [write, if_pos rfl]
      by_cases hj : j = k
      · subst hj
        simp
      · rw [lookup_ne hj, lookup_ne hj, if_neg hj]
    · rw [write, if_neg hk]
      by_cases hj : j = k'
      · subst hj
        rw [List.lookup_cons_self, List.lookup_cons_self, if_neg (Ne.symm hk)]
      · rw [lookup_ne hj, lookup_ne hj, ih]

end Write

end Entries

/-! ## What a definition changes -/

/-- The entries of the table into which a header or a dotted key leads, and the value that the table
is with other entries. -/
def entered (dotted leadsOn : Bool) : Option Toml → Option (Entries × (Entries → Toml))
  | none => some ([], .table (if dotted then .dotted else .implied))
  | some (.table .dotted es) => some (es, .table .dotted)
  | some (.table .implied es) => if dotted && !leadsOn then none else some (es, .table .implied)
  | some (.table .header es) => if dotted then none else some (es, .table .header)
  | some (.tables (es :: elements)) =>
    if dotted && !leadsOn then none else some (es, fun es => .tables (es :: elements))
  | _ => none

namespace Definition

def isInside : Definition → Bool
  | inside .. => true
  | _ => false

/-- The value of a place after a further definition. -/
def set : Definition → Option Toml → Option Toml
  | value v, none => some v
  | header, none => some (.table .header [])
  | header, some (.table .implied es) => some (.table .header es)
  | element, none => some (.tables [[]])
  | element, some (.tables elements) => some (.tables ([] :: elements))
  | inside dotted key rest, old =>
    (entered dotted rest.isInside old).bind fun (es, wrap) =>
      (Entries.change key (set rest) es).map wrap
  | _, _ => none

/-- The entries of a table after a further definition in it. -/
def define : Definition → Entries → Option Entries
  | inside _ key rest, es => Entries.change key (set rest) es
  | _, _ => none

theorem set_inside (dotted : Bool) (key : String) (rest : Definition) (old : Option Toml) :
    set (inside dotted key rest) old =
      (entered dotted rest.isInside old).bind fun (es, wrap) =>
        (define (inside dotted key rest) es).map wrap := by
  rw [set]
  rfl

/-- The value is no table that a document may add to. -/
def Closed : Definition → Prop
  | value (.table standing _) => standing = .braced
  | value (.tables _) => False
  | inside _ _ rest => Closed rest
  | _ => True

/-- What all the definitions of a place make of it. -/
def Holds (ds : List Definition) : Option Toml → Prop
  | none => ds = []
  | some v => DefinesValue ds v

section Holds
variable {ds before after : List Definition} {d : Definition} {o : Option Toml} {v : Toml}
  {es : Entries} {elements : List Entries} {key : String}

theorem definesTable_nil : DefinesTable [] es ↔ es = [] := by
  constructor
  · rintro ⟨-, hkeys, -⟩
    exact List.map_eq_nil_iff.1 hkeys
  · rintro rfl
    exact .intro nofun rfl nofun

theorem definesElements_nil : DefinesElements [] elements ↔ elements = [] := by
  constructor
  · intro h
    generalize hds : ([] : List Definition) = ds at h
    cases h with
    | nil => rfl
    | push => simp at hds
  · rintro rfl
    exact .nil

theorem ne_nil_of_definesValue (h : DefinesValue ds v) : ds ≠ [] := by
  cases h with
  | value => exact List.cons_ne_nil _ _
  | dotted => exact List.cons_ne_nil _ _
  | implied hds =>
    obtain ⟨⟨d, ds, rfl, -⟩, -⟩ := hds
    exact List.cons_ne_nil _ _
  | header => simp
  | tables hne h =>
    rintro rfl
    exact hne (definesElements_nil.1 h)

theorem Holds.isSome_iff (h : Holds ds o) : o.isSome = true ↔ ds ≠ [] := by
  cases o with
  | none => exact iff_of_false Bool.false_ne_true (not_not_intro h)
  | some v => simpa using ne_nil_of_definesValue h

theorem definesTable_iff : DefinesTable ds es ↔
    (∀ d ∈ ds, d.key?.isSome = true) ∧ es.map Prod.fst = (ds.filterMap key?).eraseDups ∧
      ∀ key, Holds (ds.filterMap (under? key)) (es.lookup key) := by
  have hunder : ∀ d key, (under? key d).isSome = true ↔ d.key? = some key := by
    intro d key
    cases d <;> simp [under?, key?]
  have hkeys : ∀ key, key ∈ ds.filterMap key? ↔ ds.filterMap (under? key) ≠ [] := by
    intro key
    simp [List.mem_filterMap, List.filterMap_eq_nil_iff, ← hunder, Option.isSome_iff_ne_none]
  constructor
  · rintro ⟨hds, hes, hvalues⟩
    refine ⟨hds, hes, fun key => ?_⟩
    have hnodup : (es.map Prod.fst).Nodup := hes ▸ nodup_eraseDups _
    cases hlookup : es.lookup key with
    | none =>
      have hmem : key ∉ es.map Prod.fst := by
        rw [← Entries.lookup_isSome_iff, hlookup]
        exact Bool.false_ne_true
      rw [hes, List.mem_eraseDups, hkeys, ne_eq, Decidable.not_not] at hmem
      exact hmem
    | some v => exact hvalues key v ((Entries.lookup_eq_some_iff hnodup).1 hlookup)
  · rintro ⟨hds, hes, hholds⟩
    have hnodup : (es.map Prod.fst).Nodup := hes ▸ nodup_eraseDups _
    refine .intro hds hes fun key v hmem => ?_
    have hv := hholds key
    rwa [(Entries.lookup_eq_some_iff hnodup).2 hmem] at hv

end Holds

/-! ## One definition after the others -/

section Concat
variable {ds before after : List Definition} {d : Definition} {o : Option Toml} {v : Toml}
  {es : Entries} {elements : List Entries} {dotted : Bool} {key : String} {rest : Definition}

/-- What the definitions make of a place is changed by one more of them. -/
def Follows (d : Definition) : Prop :=
  ∀ ds, (∀ d ∈ ds, d.Closed) → ∀ v,
    DefinesValue (ds ++ [d]) v ↔ ∃ o, Holds ds o ∧ set d o = some v

theorem filterMap_under?_concat (j : String) :
    (ds ++ [inside dotted key rest]).filterMap (under? j) =
      if key = j then ds.filterMap (under? j) ++ [rest] else ds.filterMap (under? j) := by
  rw [List.filterMap_append]
  by_cases hj : key = j
  · simp [under?, hj]
  · simp [under?, hj]

theorem closed_under? (h : ∀ d ∈ ds, d.Closed) :
    ∀ d ∈ ds.filterMap (under? key), d.Closed := by
  intro d hd
  obtain ⟨d', hd', hunder⟩ := List.mem_filterMap.1 hd
  cases d' with
  | inside dotted key' rest =>
    obtain ⟨-, heq⟩ := Option.ite_none_right_eq_some.1 hunder
    obtain rfl := Option.some.inj heq
    exact h (inside dotted key' rest) hd'
  | header | element | value => cases hunder

theorem mem_keys_iff (h : Holds (ds.filterMap (under? key)) o) :
    o.isSome = true ↔ key ∈ ds.filterMap key? := by
  have hunder : ∀ d : Definition, d.under? key ≠ none ↔ d.key? = some key := by
    intro d
    cases d <;> simp [under?, key?]
  simp [h.isSome_iff, List.filterMap_eq_nil_iff, hunder]

/-- A definition under a key changes what the key has. -/
theorem definesTable_concat_inside (hrest : Follows rest) (hds : ∀ d ∈ ds, d.Closed) :
    DefinesTable (ds ++ [inside dotted key rest]) es ↔
      ∃ es', DefinesTable ds es' ∧ define (inside dotted key rest) es' = some es := by
  have hclosed : ∀ d ∈ ds.filterMap (under? key), d.Closed := closed_under? hds
  have hkeys : (ds ++ [inside dotted key rest]).filterMap key? = ds.filterMap key? ++ [key] := by
    rw [List.filterMap_append]
    rfl
  simp only [definesTable_iff, define, Entries.change_eq, Option.map_eq_some_iff, hkeys,
    eraseDups_concat, List.forall_mem_append]
  constructor
  · rintro ⟨⟨hall, -⟩, hes, hholds⟩
    have hlast := hholds key
    rw [filterMap_under?_concat, if_pos rfl] at hlast
    obtain ⟨v, hv⟩ : ∃ v, es.lookup key = some v := by
      rw [← Option.isSome_iff_exists, hlast.isSome_iff]
      simp
    rw [hv] at hlast
    obtain ⟨o, ho, hset⟩ := (hrest _ hclosed v).1 hlast
    -- Before the last definition the key had another value, or was not there.
    have hvalues : ∀ j, (if j = key then o else es.lookup j).isSome = true ↔
        j ∈ (ds.filterMap key?).eraseDups := by
      intro j
      rw [List.mem_eraseDups]
      split
      · next hj =>
        subst hj
        exact mem_keys_iff ho
      · next hj =>
        rw [Entries.lookup_isSome_iff, hes]
        split <;> simp [hj]
    obtain ⟨es', hkeys', hlookup⟩ := Entries.exists_of_lookup hvalues
    have hother : ∀ j, j ≠ key → es'.lookup j = es.lookup j := fun j hj => by
      rw [hlookup, if_neg hj]
    refine ⟨es', ⟨hall, hkeys', fun j => ?_⟩, v, ?_, ?_⟩
    · by_cases hj : j = key
      · subst hj
        rwa [hlookup, if_pos rfl]
      · have hj' := hholds j
        rwa [filterMap_under?_concat, if_neg (Ne.symm hj), ← hother j hj] at hj'
    · rw [hlookup, if_pos rfl]
      exact hset
    · have hwrite : (Entries.write key v es').map Prod.fst = es.map Prod.fst := by
        simp only [Entries.map_fst_write, hkeys', hes, List.mem_eraseDups]
      refine Entries.ext_of_lookup hwrite ?_ fun j => ?_
      · rw [hwrite, hes, ← eraseDups_concat]
        exact nodup_eraseDups _
      · rw [Entries.lookup_write]
        split
        · next hj => rw [hj, hv]
        · next hj => exact hother j hj
  · rintro ⟨es', ⟨hall, hes', hholds⟩, v, hv, rfl⟩
    refine ⟨⟨hall, by simp [key?]⟩, ?_, fun j => ?_⟩
    · simp only [Entries.map_fst_write, hes', List.mem_eraseDups]
    · rw [filterMap_under?_concat, Entries.lookup_write]
      by_cases hj : key = j
      · subst hj
        rw [if_pos rfl, if_pos rfl]
        exact (hrest _ hclosed v).2 ⟨_, hholds key, hv⟩
      · rw [if_neg hj, if_neg (Ne.symm hj)]
        exact hholds j

theorem isSome_key?_of_mem (h : DefinesTable ds es) (hd : d ∈ ds) : d.isInside = true := by
  have hkey := (definesTable_iff.1 h).1 d hd
  cases d <;> first | rfl | cases hkey

theorem ByHeader.isInside (h : d.ByHeader) : d.isInside = true := by
  obtain ⟨key, rest, rfl⟩ := h
  rfl

theorem leadsOn_iff :
    LeadsOn (inside dotted key rest) ↔ dotted = false ∨ rest.isInside = true := by
  constructor
  · rintro (⟨key', rest', heq⟩ | ⟨key', dotted', key'', rest', heq⟩)
    · obtain ⟨rfl, -, -⟩ := Definition.inside.inj heq
      exact .inl rfl
    · obtain ⟨-, -, rfl⟩ := Definition.inside.inj heq
      exact .inr rfl
  · rintro (rfl | h)
    · exact .inl ⟨key, rest, rfl⟩
    · cases rest with
      | inside dotted' key' rest =>
        cases dotted with
        | false => exact .inl ⟨key, _, rfl⟩
        | true => exact .inr ⟨key, dotted', key', rest, rfl⟩
      | header | element | value => cases h

theorem LeadsOn.isInside (h : d.LeadsOn) : d.isInside = true := by
  obtain h | ⟨key, dotted, key', rest, rfl⟩ := h
  · exact h.isInside
  · rfl

/-- The last one of the definitions is the one in the middle, or comes after it. -/
theorem last_cases {x : Definition} (h : ds ++ [d] = before ++ x :: after) :
    after = [] ∧ before = ds ∧ x = d ∨
      ∃ after', after = after' ++ [d] ∧ ds = before ++ x :: after' := by
  obtain rfl | ⟨after', d', hafter⟩ := List.eq_nil_or_concat after
  · obtain ⟨rfl, heq⟩ := List.append_inj' h rfl
    exact .inl ⟨rfl, rfl, (List.cons.inj heq).1.symm⟩
  · rw [hafter, List.concat_eq_append, ← List.cons_append, ← List.append_assoc] at h
    obtain ⟨rfl, heq⟩ := List.append_inj' h rfl
    exact .inr ⟨after', by rw [hafter, List.concat_eq_append, (List.cons.inj heq).1], rfl⟩

/-- What makes a place a table or an array of tables is no value that is given. -/
theorem definesElements_concat : DefinesElements (ds ++ [d]) elements ↔
    d = element ∧ (∃ before, DefinesElements ds before ∧ elements = [] :: before) ∨
      ∃ front inner es before, ds = front ++ element :: inner ∧ elements = es :: before ∧
        DefinesElements front before ∧ (∀ d ∈ inner, d.LeadsOn) ∧ d.LeadsOn ∧
          DefinesTable (inner ++ [d]) es := by
  constructor
  · intro h
    generalize hall : ds ++ [d] = all at h
    cases h with
    | nil => simp at hall
    | @push front inner before es h hinner hes =>
      obtain ⟨rfl, rfl, rfl⟩ | ⟨inner, rfl, rfl⟩ := last_cases hall
      · rw [definesTable_nil] at hes
        exact .inl ⟨rfl, before, h, by rw [hes]⟩
      · obtain ⟨hinner, hd⟩ := List.forall_mem_append.1 hinner
        exact .inr ⟨front, inner, es, before, rfl, rfl, h, hinner, hd d List.mem_cons_self, hes⟩
  · rintro (⟨rfl, before, h, rfl⟩ | ⟨front, inner, es, before, rfl, rfl, h, hinner, hd, hes⟩)
    · exact .push h nofun (definesTable_nil.2 rfl)
    · rw [List.append_assoc, List.cons_append]
      exact .push h (List.forall_mem_append.2 ⟨hinner, by simpa using hd⟩) hes

/-- What comes last and does not lead into a table is the value itself, or a header. -/
theorem cases_of_not_inside (hd : d.isInside = false) (h : DefinesValue (ds ++ [d]) v) :
    ds = [] ∧ d = value v ∨
      (d = header ∧ ∃ es, v = .table .header es ∧ (ds = [] ∨ Implied ds) ∧ DefinesTable ds es) ∨
      (d = element ∧ ∃ elements, v = .tables ([] :: elements) ∧ DefinesElements ds elements) := by
  have hnot : ¬ d.isInside = true := by
    rw [hd]
    exact Bool.false_ne_true
  have hmem : d ∈ ds ++ [d] := List.mem_append_right ds List.mem_cons_self
  generalize hall : ds ++ [d] = all at h hmem
  cases h with
  | value v =>
    obtain ⟨rfl, heq⟩ := List.append_eq_singleton_iff.1 hall |>.resolve_right (by simp)
    exact .inl ⟨rfl, (List.cons.inj heq).1⟩
  | dotted h => exact absurd (isSome_key?_of_mem h hmem) hnot
  | implied hds h => exact absurd (isSome_key?_of_mem h hmem) hnot
  | @header before after es hbefore hafter h =>
    obtain ⟨rfl, rfl, rfl⟩ | ⟨after', rfl, -⟩ := last_cases hall
    · rw [List.append_nil] at h
      exact .inr (.inl ⟨rfl, es, rfl, hbefore, h⟩)
    · exact absurd (hafter d (List.mem_append_right after' List.mem_cons_self)).isInside hnot
  | tables hne h =>
    rw [← hall] at h
    obtain ⟨rfl, before, hbefore, rfl⟩ | ⟨_, _, _, _, -, -, -, -, hleads, -⟩ :=
      definesElements_concat.1 h
    · exact .inr (.inr ⟨rfl, before, rfl, hbefore⟩)
    · exact absurd hleads.isInside hnot

theorem follows_value (v : Toml) : Follows (value v) := by
  intro ds hds v'
  constructor
  · intro h
    obtain ⟨rfl, heq⟩ | ⟨heq, -⟩ | ⟨heq, -⟩ := cases_of_not_inside rfl h
    · exact ⟨none, rfl, congrArg some (Definition.value.inj heq)⟩
    · cases heq
    · cases heq
  · rintro ⟨o, ho, hset⟩
    cases o with
    | none =>
      obtain rfl : ds = [] := ho
      obtain rfl := Option.some.inj hset
      exact .value v
    | some => cases hset

/-- A value that is given is no table to which a document may add. -/
theorem ne_value (hds : ∀ d ∈ ds, d.Closed) (hv : ¬ (Definition.value v).Closed) :
    ds ≠ [.value v] := by
  rintro rfl
  exact hv (hds _ List.mem_cons_self)

theorem implied_of_definesValue (hds : ∀ d ∈ ds, d.Closed)
    (h : DefinesValue ds (.table .implied es)) : Implied ds ∧ DefinesTable ds es := by
  generalize hv : Toml.table .implied es = v at h
  cases h with
  | value => exact absurd rfl (ne_value hds (by rw [← hv]; exact nofun))
  | implied hds h =>
    obtain ⟨-, rfl⟩ := Toml.table.inj hv
    exact ⟨hds, h⟩
  | dotted | header | tables => cases hv

theorem elements_of_definesValue (hds : ∀ d ∈ ds, d.Closed)
    (h : DefinesValue ds (.tables elements)) : elements ≠ [] ∧ DefinesElements ds elements := by
  generalize hv : Toml.tables elements = v at h
  cases h with
  | value => exact absurd rfl (ne_value hds (by rw [← hv]; exact nofun))
  | tables hne h =>
    obtain rfl := Toml.tables.inj hv
    exact ⟨hne, h⟩
  | dotted | header | implied => cases hv

theorem set_header_eq_some (h : set header o = some v) :
    o = none ∧ v = .table .header [] ∨
      ∃ es, o = some (.table .implied es) ∧ v = .table .header es := by
  obtain _ | v' := o
  · exact .inl ⟨rfl, (Option.some.inj h).symm⟩
  · cases v' with
    | table standing es =>
      cases standing with
      | implied => exact .inr ⟨es, rfl, (Option.some.inj h).symm⟩
      | header | dotted | braced => cases h
    | _ => cases h

theorem set_element_eq_some (h : set element o = some v) :
    o = none ∧ v = .tables [[]] ∨
      ∃ elements, o = some (.tables elements) ∧ v = .tables ([] :: elements) := by
  obtain _ | v' := o
  · exact .inl ⟨rfl, (Option.some.inj h).symm⟩
  · cases v' with
    | tables elements => exact .inr ⟨elements, rfl, (Option.some.inj h).symm⟩
    | _ => cases h

theorem follows_header : Follows header := by
  intro ds hds v
  constructor
  · intro h
    obtain ⟨-, heq⟩ | ⟨-, es, rfl, hbefore, h⟩ | ⟨heq, -⟩ := cases_of_not_inside rfl h
    · cases heq
    · obtain rfl | hbefore := hbefore
      · rw [definesTable_nil] at h
        exact ⟨none, rfl, by rw [h]; rfl⟩
      · exact ⟨some (.table .implied es), .implied hbefore h, rfl⟩
    · cases heq
  · rintro ⟨o, ho, hset⟩
    obtain ⟨rfl, rfl⟩ | ⟨es, rfl, rfl⟩ := set_header_eq_some hset
    · obtain rfl : ds = [] := ho
      exact .header (.inl rfl) nofun (definesTable_nil.2 rfl)
    · obtain ⟨hbefore, h⟩ := implied_of_definesValue hds ho
      exact .header (.inr hbefore) nofun (by rwa [List.append_nil])

theorem follows_element : Follows element := by
  intro ds hds v
  constructor
  · intro h
    obtain ⟨-, heq⟩ | ⟨heq, -⟩ | ⟨-, elements, rfl, helements⟩ := cases_of_not_inside rfl h
    · cases heq
    · cases heq
    · by_cases hne : elements = []
      · subst hne
        generalize hnil : ([] : List Entries) = elements at helements
        cases helements with
        | nil => exact ⟨none, rfl, rfl⟩
        | push => cases hnil
      · exact ⟨some (.tables elements), .tables hne helements, rfl⟩
  · rintro ⟨o, ho, hset⟩
    obtain ⟨rfl, rfl⟩ | ⟨elements, rfl, rfl⟩ := set_element_eq_some hset
    · obtain rfl : ds = [] := ho
      exact .tables (List.cons_ne_nil _ _) (.push .nil nofun (definesTable_nil.2 rfl))
    · obtain ⟨-, h⟩ := elements_of_definesValue hds ho
      exact .tables (List.cons_ne_nil _ _) (.push h nofun (definesTable_nil.2 rfl))

/-- The ways in which a header or a dotted key enters a table. -/
theorem entered_eq_some_iff {leadsOn : Bool} {wrap : Entries → Toml} :
    entered dotted leadsOn o = some (es, wrap) ↔
      o = none ∧ es = [] ∧ wrap = .table (if dotted then .dotted else .implied) ∨
      (∃ standing, o = some (.table standing es) ∧ wrap = .table standing ∧
        (standing = .dotted ∨ standing = .implied ∧ (dotted = false ∨ leadsOn = true) ∨
          standing = .header ∧ dotted = false)) ∨
      ∃ elements, o = some (.tables (es :: elements)) ∧
        wrap = (fun es => .tables (es :: elements)) ∧ (dotted = false ∨ leadsOn = true) := by
  constructor
  · intro h
    unfold entered at h
    split at h
    · obtain ⟨rfl, rfl⟩ := Prod.mk.inj (Option.some.inj h)
      exact .inl ⟨rfl, rfl, rfl⟩
    · obtain ⟨rfl, rfl⟩ := Prod.mk.inj (Option.some.inj h)
      exact .inr (.inl ⟨.dotted, rfl, rfl, .inl rfl⟩)
    · obtain ⟨hleads, h⟩ := Option.ite_none_left_eq_some.1 h
      obtain ⟨rfl, rfl⟩ := Prod.mk.inj (Option.some.inj h)
      exact .inr (.inl ⟨.implied, rfl, rfl, .inr (.inl ⟨rfl, by grind⟩)⟩)
    · obtain ⟨hdotted, h⟩ := Option.ite_none_left_eq_some.1 h
      obtain ⟨rfl, rfl⟩ := Prod.mk.inj (Option.some.inj h)
      exact .inr (.inl ⟨.header, rfl, rfl, .inr (.inr ⟨rfl, Bool.eq_false_iff.2 hdotted⟩)⟩)
    · obtain ⟨hleads, h⟩ := Option.ite_none_left_eq_some.1 h
      obtain ⟨rfl, rfl⟩ := Prod.mk.inj (Option.some.inj h)
      exact .inr (.inr ⟨_, rfl, rfl, by grind⟩)
    · cases h
  · rintro (⟨rfl, rfl, rfl⟩ | ⟨standing, rfl, rfl, rfl | ⟨rfl, hleads⟩ | ⟨rfl, rfl⟩⟩ |
      ⟨elements, rfl, rfl, hleads⟩)
    · rfl
    · rfl
    · rcases hleads with rfl | rfl
      · rfl
      · cases dotted <;> rfl
    · rfl
    · rcases hleads with rfl | rfl
      · rfl
      · cases dotted <;> rfl

theorem set_inside_eq_some_iff : set (inside dotted key rest) o = some v ↔
    ∃ before wrap, entered dotted rest.isInside o = some (before, wrap) ∧
      ∃ after, define (inside dotted key rest) before = some after ∧ v = wrap after := by
  rw [set_inside, Option.bind_eq_some_iff]
  constructor
  · rintro ⟨⟨before, wrap⟩, hentered, h⟩
    obtain ⟨after, hafter, rfl⟩ := Option.map_eq_some_iff.1 h
    exact ⟨before, wrap, hentered, after, hafter, rfl⟩
  · rintro ⟨before, wrap, hentered, after, hafter, rfl⟩
    exact ⟨(before, wrap), hentered, Option.map_eq_some_iff.2 ⟨after, hafter, rfl⟩⟩

theorem concat_implied (h : Implied ds) (hd : d.LeadsOn) : Implied (ds ++ [d]) := by
  obtain ⟨⟨d', ds', rfl, hfirst⟩, hleads⟩ := h
  exact ⟨⟨d', ds' ++ [d], rfl, hfirst⟩, List.forall_mem_append.2 ⟨hleads, by simpa using hd⟩⟩

/-- The place was a table into which the last definition leads, or nothing. -/
theorem holds_of_last (hrest : Follows rest) (hds : ∀ d ∈ ds, d.Closed)
    (h : DefinesValue (ds ++ [inside dotted key rest]) v) :
    ∃ o, Holds ds o ∧ set (inside dotted key rest) o = some v := by
  simp only [set_inside_eq_some_iff, entered_eq_some_iff]
  generalize hall : ds ++ [inside dotted key rest] = all at h
  cases h with
  | value => rcases List.append_eq_singleton_iff.1 hall with ⟨-, heq⟩ | ⟨-, heq⟩ <;> cases heq
  | dotted h =>
    rw [← hall] at h
    obtain ⟨before, hbefore, hafter⟩ := (definesTable_concat_inside hrest hds).1 h
    cases ds with
    | nil =>
      obtain ⟨rfl, -, -⟩ := Definition.inside.inj (List.cons.inj hall).1
      exact ⟨none, rfl, before, _, .inl ⟨rfl, definesTable_nil.1 hbefore, rfl⟩, _, hafter, rfl⟩
    | cons d ds =>
      obtain rfl := (List.cons.inj hall).1
      exact ⟨some _, DefinesValue.dotted hbefore, before, _, .inr (.inl ⟨_, rfl, rfl, .inl rfl⟩), _,
        hafter, rfl⟩
  | implied himplied h =>
    rw [← hall] at h himplied
    obtain ⟨before, hbefore, hafter⟩ := (definesTable_concat_inside hrest hds).1 h
    obtain ⟨⟨d', ds', heq, hfirst⟩, hleads⟩ := himplied
    obtain ⟨hleads, hlast⟩ := List.forall_mem_append.1 hleads
    cases ds with
    | nil =>
      obtain ⟨key', rest', rfl⟩ := hfirst
      obtain ⟨rfl, -, -⟩ := Definition.inside.inj (List.cons.inj heq).1
      exact ⟨none, rfl, before, _, .inl ⟨rfl, definesTable_nil.1 hbefore, rfl⟩, _, hafter, rfl⟩
    | cons d ds =>
      obtain rfl := (List.cons.inj heq).1
      have hlast := leadsOn_iff.1 (hlast _ List.mem_cons_self)
      exact ⟨some _, DefinesValue.implied ⟨⟨d, ds, rfl, hfirst⟩, hleads⟩ hbefore, before, _,
        .inr (.inl ⟨_, rfl, rfl, .inr (.inl ⟨rfl, hlast⟩)⟩), _, hafter, rfl⟩
  | header hfront hheader h =>
    obtain ⟨-, -, heq⟩ | ⟨after', rfl, rfl⟩ := last_cases hall
    · cases heq
    · rw [← List.append_assoc] at h
      obtain ⟨hbefore, hbehind⟩ := List.forall_mem_append.1 hds
      have hclosed := List.forall_mem_append.2 ⟨hbefore, (List.forall_mem_cons.1 hbehind).2⟩
      obtain ⟨before, hbefore, hafter⟩ := (definesTable_concat_inside hrest hclosed).1 h
      obtain ⟨hlater, hlast⟩ := List.forall_mem_append.1 hheader
      obtain ⟨key', rest', heq⟩ := hlast _ List.mem_cons_self
      obtain ⟨rfl, -, -⟩ := Definition.inside.inj heq
      exact ⟨some _, DefinesValue.header hfront hlater hbefore, before, _,
        .inr (.inl ⟨_, rfl, rfl, .inr (.inr ⟨rfl, rfl⟩)⟩), _, hafter, rfl⟩
  | tables hne h =>
    rw [← hall] at h
    obtain ⟨heq, -⟩ | ⟨front, inner, es, others, rfl, rfl, hothers, hinner, hlast, hes⟩ :=
      definesElements_concat.1 h
    · cases heq
    · have hclosed := (List.forall_mem_cons.1 (List.forall_mem_append.1 hds).2).2
      obtain ⟨before, hbefore, hafter⟩ := (definesTable_concat_inside hrest hclosed).1 hes
      exact ⟨some _, DefinesValue.tables (List.cons_ne_nil _ _) (.push hothers hinner hbefore),
        before, _, .inr (.inr ⟨others, rfl, rfl, leadsOn_iff.1 hlast⟩), _, hafter, rfl⟩

/-- A definition that leads into a table adds to it. -/
theorem definesValue_of_holds (hrest : Follows rest) (hds : ∀ d ∈ ds, d.Closed) (ho : Holds ds o)
    (h : set (inside dotted key rest) o = some v) :
    DefinesValue (ds ++ [inside dotted key rest]) v := by
  obtain ⟨before, wrap, hentered, after, hafter, rfl⟩ := set_inside_eq_some_iff.1 h
  obtain ⟨rfl, rfl, rfl⟩ | ⟨standing, rfl, rfl, hstanding⟩ | ⟨elements, rfl, rfl, hleads⟩ :=
    entered_eq_some_iff.1 hentered
  · obtain rfl : ds = [] := ho
    have hes : DefinesTable ([] ++ [inside dotted key rest]) after :=
      (definesTable_concat_inside hrest hds).2 ⟨[], definesTable_nil.2 rfl, hafter⟩
    cases dotted with
    | true => exact .dotted hes
    | false =>
      have hheader : ByHeader (inside false key rest) := ⟨key, rest, rfl⟩
      exact .implied ⟨⟨_, [], rfl, hheader⟩, by simpa using .inl hheader⟩ hes
  · generalize hv : Toml.table standing before = v at ho
    cases ho with
    | value =>
      have hbraced := hds _ List.mem_cons_self
      rw [← hv] at hbraced
      obtain rfl : standing = .braced := hbraced
      rcases hstanding with h | ⟨h, -⟩ | ⟨h, -⟩ <;> cases h
    | dotted hbefore =>
      obtain ⟨rfl, rfl⟩ := Toml.table.inj hv
      have hes := (definesTable_concat_inside hrest hds).2 ⟨_, hbefore, hafter⟩
      exact .dotted hes
    | implied himplied hbefore =>
      obtain ⟨rfl, rfl⟩ := Toml.table.inj hv
      have hes := (definesTable_concat_inside hrest hds).2 ⟨_, hbefore, hafter⟩
      have hlast : LeadsOn (inside dotted key rest) := by
        rw [leadsOn_iff]
        rcases hstanding with h | ⟨-, h⟩ | ⟨h, -⟩
        · cases h
        · exact h
        · cases h
      exact .implied (concat_implied himplied hlast) hes
    | @header front later es hfront hlater hbefore =>
      obtain ⟨rfl, rfl⟩ := Toml.table.inj hv
      have hlast : ByHeader (inside dotted key rest) := by
        rcases hstanding with h | ⟨h, -⟩ | ⟨-, rfl⟩
        · cases h
        · cases h
        · exact ⟨key, rest, rfl⟩
      obtain ⟨hclosed, hclosed'⟩ := List.forall_mem_append.1 hds
      have hes := (definesTable_concat_inside hrest (List.forall_mem_append.2
        ⟨hclosed, (List.forall_mem_cons.1 hclosed').2⟩)).2 ⟨_, hbefore, hafter⟩
      rw [List.append_assoc] at hes
      rw [List.append_assoc, List.cons_append]
      exact .header hfront (List.forall_mem_append.2 ⟨hlater, by simpa using hlast⟩) hes
    | tables => cases hv
  · obtain ⟨-, helements⟩ := elements_of_definesValue hds ho
    generalize hall : before :: elements = all at helements
    cases helements with
    | nil => cases hall
    | @push front inner others es hothers hinner hbefore =>
      obtain ⟨rfl, rfl⟩ := List.cons.inj hall
      have hclosed := (List.forall_mem_cons.1 (List.forall_mem_append.1 hds).2).2
      have hes := (definesTable_concat_inside hrest hclosed).2 ⟨_, hbefore, hafter⟩
      rw [List.append_assoc, List.cons_append]
      exact .tables (List.cons_ne_nil _ _) (.push hothers (List.forall_mem_append.2
        ⟨hinner, by simpa using leadsOn_iff.2 hleads⟩) hes)

theorem follows (d : Definition) : Follows d := by
  induction d with
  | header => exact follows_header
  | element => exact follows_element
  | value v => exact follows_value v
  | inside dotted key rest ih =>
    intro ds hds v
    constructor
    · exact holds_of_last ih hds
    · rintro ⟨o, ho, h⟩
      exact definesValue_of_holds ih hds ho h

/-- The table of some definitions, changed by one more, is the table of them all. -/
theorem definesTable_concat (hds : ∀ d ∈ ds, d.Closed) : DefinesTable (ds ++ [d]) es ↔
    ∃ es', DefinesTable ds es' ∧ define d es' = some es := by
  cases d with
  | inside dotted key rest => exact definesTable_concat_inside (follows rest) hds
  | header | element | value =>
    constructor
    · intro h
      cases isSome_key?_of_mem h (List.mem_append_right ds List.mem_cons_self)
    · rintro ⟨es', -, h⟩
      cases h

end Concat

/-- **Tables.** Definitions make a table exactly when each of them can be made after the ones
before it. -/
theorem definesTable_iff_foldlM {ds : List Definition} {es : Entries} (hds : ∀ d ∈ ds, d.Closed) :
    DefinesTable ds es ↔ ds.foldlM (fun es d => define d es) [] = some es := by
  induction ds using List.reverseRecOn generalizing es with
  | nil =>
    rw [definesTable_nil, List.foldlM_nil]
    exact eq_comm.trans Option.some_inj.symm
  | append_singleton ds d ih =>
    have hclosed := (List.forall_mem_append.1 hds).1
    rw [definesTable_concat hclosed, List.foldlM_append]
    simp only [ih hclosed, List.foldlM_cons, List.foldlM_nil]
    simp [Option.bind_eq_some_iff]

end Definition

/-! ## What the reader adds to its tables -/

namespace Entries

open Definition

section Reader
variable {path : List String} {k : String} {v : Toml} {es : Entries}

theorem isInside_along (dotted : Bool) (path : List String) (v : Toml) :
    (along dotted path (.value v)).isInside = !path.isEmpty := by
  cases path <;> rfl

/-- A value is put where its key leads. -/
theorem putDotted_eq (v : Toml) (path : List String) (es : Entries) :
    putDotted v path es = define (ofEntry path v) es := by
  cases path with
  | nil => rfl
  | cons k path =>
    show _ = change k (set (along true path (.value v))) es
    induction path generalizing k es with
    | nil =>
      rw [putDotted, put]
      congr 1
      funext old
      cases old <;> rfl
    | cons k' path ih =>
      rw [putDotted]
      congr 1
      funext old
      show _ = set (.inside true k' (along true path (.value v))) old
      rw [set_inside, isInside_along]
      simp only [ih]
      cases old with
      | none => rfl
      | some v' =>
        cases v' with
        | table standing => cases standing <;> cases path <;> rfl
        | tables elements => cases elements <;> cases path <;> rfl
        | _ => rfl

/-- A header leads through tables to a definition. -/
theorem within_eq (rest : Definition) (path : List String) (es : Entries) :
    within (define (.inside false k rest)) path es =
      define (along false path (.inside false k rest)) es := by
  induction path generalizing es with
  | nil => rfl
  | cons k' path ih =>
    have hinside : ∃ j rest', along false path (.inside false k rest) = .inside false j rest' := by
      cases path with
      | nil => exact ⟨k, rest, rfl⟩
      | cons j path => exact ⟨j, _, rfl⟩
    obtain ⟨j, rest', hrest⟩ := hinside
    show _ = change k' (set (along false path (.inside false k rest))) es
    rw [within]
    congr 1
    funext old
    simp only [ih, hrest, set_inside]
    cases old with
    | none => rfl
    | some v' =>
      cases v' with
      | table standing => cases standing <;> rfl
      | tables elements => cases elements <;> rfl
      | _ => rfl

theorem along_concat (dotted : Bool) (path : List String) (k : String) (d : Definition) :
    along dotted (path ++ [k]) d = along dotted path (.inside dotted k d) :=
  List.foldr_append

theorem openTable_eq (path : List String) (k : String) (es : Entries) :
    openTable path k es = define (along false (path ++ [k]) .header) es := by
  rw [along_concat, ← within_eq, openTable]
  congr 2
  funext old
  cases old with
  | none => rfl
  | some v' =>
    cases v' with
    | table standing => cases standing <;> rfl
    | _ => rfl

theorem pushTable_eq (path : List String) (k : String) (es : Entries) :
    pushTable path k es = define (along false (path ++ [k]) .element) es := by
  rw [along_concat, ← within_eq, pushTable]
  congr 2
  funext old
  cases old with
  | none => rfl
  | some v' => cases v' <;> rfl

end Reader

end Entries

end TvmDebug.Toml
