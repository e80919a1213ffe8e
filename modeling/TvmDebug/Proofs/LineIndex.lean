import Mathlib.Data.List.Nodup
import Mathlib.Data.List.Sort
import TvmDebug.Proofs.Lines
/-! # The line index groups the steps of a trace

`LineIndex.Groups`: the list under a line holds the positions of the steps that executed it, all of
them and no others, in order, and no list is empty. Such an index has no entry for a line that no
step executed (`Groups.find?_eq_none_iff`), lists every step with a line once
(`Groups.count_listed`) and is the only one of its steps (`Groups.unique`). The line index is that
one (`lineIndex_groups`). -/
set_option autoImplicit false

namespace TvmDebug

/-! ## Indices that group -/

namespace LineIndex

/-- All positions listed, line by line. -/
def listed (index : LineIndex) : List Nat := index.entries.flatMap Prod.snd

/-- The lists of an index are made of the steps that executed their lines. -/
structure Groups (index : LineIndex) (steps : List Step) : Prop where
  mem_iff : ∀ line i, (∃ is, index.find? line = some is ∧ i ∈ is) ↔
    ∃ step, steps[i]? = some step ∧ step.line.map (· + 1) = some line
  ne_nil : ∀ line is, index.find? line = some is → is ≠ []
  ascending : ∀ line is, index.find? line = some is → is.Pairwise (· < ·)

namespace Groups

variable {index index' : LineIndex} {steps : List Step}

theorem find?_eq_none_iff (h : index.Groups steps) (line : UInt32) :
    index.find? line = none ↔ ∀ step ∈ steps, step.line.map (· + 1) ≠ some line := by
  constructor
  · intro hnone step hstep hline
    obtain ⟨i, hi⟩ := List.mem_iff_getElem?.1 hstep
    obtain ⟨is, his, -⟩ := (h.mem_iff line i).2 ⟨step, hi, hline⟩
    simp [hnone] at his
  · intro hsteps
    rw [Option.eq_none_iff_forall_ne_some]
    intro is his
    obtain ⟨i, hi⟩ := List.exists_mem_of_ne_nil is (h.ne_nil line is his)
    obtain ⟨step, hstep, hline⟩ := (h.mem_iff line i).1 ⟨is, his, hi⟩
    exact hsteps step (List.mem_of_getElem? hstep) hline

theorem mem_listed_iff (h : index.Groups steps) {i : Nat} :
    i ∈ index.listed ↔ (steps[i]?.bind Step.line).isSome := by
  rw [listed, List.mem_flatMap, Option.isSome_iff_exists]
  constructor
  · rintro ⟨⟨line, is⟩, hentry, hi⟩
    obtain ⟨step, hstep, hline⟩ :=
      (h.mem_iff line i).1 ⟨is, (index.find?_eq_some_iff line is).2 hentry, hi⟩
    obtain ⟨l, hl, -⟩ := Option.map_eq_some_iff.1 hline
    exact ⟨l, Option.bind_eq_some_iff.2 ⟨step, hstep, hl⟩⟩
  · rintro ⟨l, hl⟩
    obtain ⟨step, hstep, hl⟩ := Option.bind_eq_some_iff.1 hl
    obtain ⟨is, his, hi⟩ := (h.mem_iff (l + 1) i).2 ⟨step, hstep, by rw [hl]; rfl⟩
    exact ⟨(l + 1, is), (index.find?_eq_some_iff _ _).1 his, hi⟩

/-- No step is listed under two lines, because a step executes one line at most. -/
theorem nodup_listed (h : index.Groups steps) : index.listed.Nodup := by
  have hfind : ∀ e ∈ index.entries, index.find? e.1 = some e.2 :=
    fun e he => (index.find?_eq_some_iff e.1 e.2).2 he
  refine List.nodup_flatMap.2 ⟨fun e he => ?_, ?_⟩
  · exact (h.ascending e.1 e.2 (hfind e he)).imp Nat.ne_of_lt
  · refine index.pairwise_keys_ne.imp_of_mem fun {e e'} he he' hne i hi hi' => hne ?_
    obtain ⟨step, hstep, hline⟩ := (h.mem_iff e.1 i).1 ⟨e.2, hfind e he, hi⟩
    obtain ⟨step', hstep', hline'⟩ := (h.mem_iff e'.1 i).1 ⟨e'.2, hfind e' he', hi'⟩
    obtain rfl := Option.some.inj (hstep.symm.trans hstep')
    exact Option.some.inj (hline.symm.trans hline')

/-- A step with a line is listed once, all lines together, and no other position is listed. -/
theorem count_listed (h : index.Groups steps) (i : Nat) :
    index.listed.count i = if (steps[i]?.bind Step.line).isSome then 1 else 0 := by
  split
  · next hline => exact List.count_eq_one_of_mem h.nodup_listed (h.mem_listed_iff.2 hline)
  · next hline => exact List.count_eq_zero.2 (mt h.mem_listed_iff.1 hline)

theorem unique (h : index.Groups steps) (h' : index'.Groups steps) : index = index' := by
  refine SortedMap.eq_of_find?_eq fun line => ?_
  cases his : index.find? line with
  | none =>
    rw [h.find?_eq_none_iff, ← h'.find?_eq_none_iff] at his
    exact his.symm
  | some is =>
    have hsome : index'.find? line ≠ none := by
      rw [Ne, h'.find?_eq_none_iff, ← h.find?_eq_none_iff, his]
      exact Option.some_ne_none is
    obtain ⟨is', his'⟩ := Option.ne_none_iff_exists'.1 hsome
    have hlists : is = is' :=
      (h.ascending line is his).eq_of_mem_iff (h'.ascending line is' his') fun i => by
        have hmem := (h.mem_iff line i).trans (h'.mem_iff line i).symm
        simpa [his, his'] using hmem
    rw [hlists, his']

end Groups

/-! ## The index of a trace -/

theorem ne_nil_of_find?_ofLocated {hits : List (UInt32 × Nat)} {line : UInt32} {is : List Nat}
    (h : (ofLocated hits).find? line = some is) : is ≠ [] := by
  induction hits with
  | nil => cases h
  | cons hit hits ih =>
    rw [ofLocated, List.foldr_cons, SortedMap.find?_upsert] at h
    split at h
    · obtain rfl := Option.some.inj h
      exact List.cons_ne_nil _ _
    · exact ih h

theorem mem_positions_iff {index : LineIndex} {line : UInt32} {i : Nat} :
    i ∈ index.positions line ↔ ∃ is, index.find? line = some is ∧ i ∈ is := by
  unfold positions
  cases index.find? line <;> simp

theorem positions_of_find? {index : LineIndex} {line : UInt32} {is : List Nat}
    (h : index.find? line = some is) : index.positions line = is := by
  rw [positions, h]
  rfl

end LineIndex

theorem groups_of_lineIndex {t : Trace} (h : t.Numbered) {index : LineIndex}
    (hindex : lineIndex t.steps = .ok index) : index.Groups t.steps where
  mem_iff line i := by
    rw [← LineIndex.mem_positions_iff, mem_positions_lineIndex h hindex]
  ne_nil line is his := by
    rw [lineIndex, asmLines_eq h] at hindex
    obtain rfl := Except.ok.inj hindex
    exact LineIndex.ne_nil_of_find?_ofLocated his
  ascending line is his := by
    rw [← LineIndex.positions_of_find? his]
    exact pairwise_positions_lineIndex h hindex line

/-- **The line index groups the steps by line.** It lists each step with a line once, and a line
that no step executed has no entry. -/
theorem lineIndex_groups {t : Trace} (h : t.Numbered) :
    ∃ index, lineIndex t.steps = .ok index ∧ index.Groups t.steps ∧
      (∀ index' : LineIndex, index'.Groups t.steps → index' = index) ∧
      (∀ i, index.listed.count i = if (t.steps[i]?.bind Step.line).isSome then 1 else 0) ∧
      ∀ line, index.find? line = none ↔ ∀ step ∈ t.steps, step.line.map (· + 1) ≠ some line := by
  obtain ⟨index, hindex⟩ := lineIndex_ok h
  have hgroups := groups_of_lineIndex h hindex
  exact ⟨index, hindex, hgroups, fun index' hgroups' => hgroups'.unique hgroups,
    hgroups.count_listed, hgroups.find?_eq_none_iff⟩

/-- Line 10 is executed before and after another line and a step without a line. -/
def returnTrace : Trace where
  steps := [(Step.of "PUSHINT" 18).withLine 9, (Step.of "PUSHINT" 18).withLine 19,
    Step.of "RET" 18, (Step.of "PUSHINT" 18).withLine 9]

theorem lineIndex_groups_return : returnTrace.Numbered ∧
    lineIndex returnTrace.steps = .ok (SortedMap.ofList [(10, [0, 3]), (20, [1])]) ∧
    LineIndex.Groups (SortedMap.ofList [(10, [0, 3]), (20, [1])]) returnTrace.steps := by
  have hnumbered : returnTrace.Numbered := by
    unfold Trace.Numbered
    decide
  obtain ⟨index, hindex, hgroups, -⟩ := lineIndex_groups hnumbered
  obtain rfl : SortedMap.ofList [(10, [0, 3]), (20, [1])] = index :=
    Except.ok.inj (Eq.trans rfl hindex)
  exact ⟨hnumbered, hindex, hgroups⟩

end TvmDebug
