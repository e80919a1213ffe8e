import TvmDebug.DebugInfo.Basic
import TvmDebug.Proofs.SortedMap
import TvmDebug.Trace.Lines
/-! # Line numbers of steps and instructions

Every 0-based line but the last one has a 1-based number, so that the numbering of steps and
instructions without that line cannot fail (`Instruction.asmLines_eq`, `asmLines_eq`). The line
index of such steps lists exactly the steps of each line (`mem_positions_lineIndex`), in order. -/
set_option autoImplicit false

namespace TvmDebug

/-! ## Lines with a number -/

/-- No instruction of a section stands in the line without a number. -/
def SectionInstructions.Numbered (m : SectionInstructions) : Prop :=
  ∀ e ∈ m.entries, ∀ i ∈ e.2, i.line ≠ some lastLine

/-- No step stands in the line without a number. -/
def Trace.Numbered (t : Trace) : Prop := ∀ s ∈ t.steps, s.line ≠ some lastLine

theorem oneBased?_eq {line : Option UInt32} (h : line ≠ some lastLine) :
    oneBased? line = .ok (line.map (· + 1)) := by
  cases line with
  | none => rfl
  | some l =>
    have hl : l ≠ lastLine := fun e => h (by rw [e])
    simp [oneBased?, oneBased, hl, Except.map]

theorem mapM_oneBased? {α : Type} (line : α → Option UInt32) {xs : List α}
    (h : ∀ x ∈ xs, line x ≠ some lastLine) :
    xs.mapM (fun x => oneBased? (line x)) = .ok (xs.map fun x => (line x).map (· + 1)) := by
  induction xs with
  | nil => rfl
  | cons x xs ih =>
    rw [List.mapM_cons, oneBased?_eq (h x List.mem_cons_self),
      ih fun y hy => h y (List.mem_cons_of_mem _ hy)]
    rfl

theorem Instruction.asmLines_eq {is : List Instruction} (h : ∀ i ∈ is, i.line ≠ some lastLine) :
    Instruction.asmLines is = .ok (is.filterMap fun i => i.line.map (· + 1)) := by
  have hm : is.mapM Instruction.asmLine = .ok (is.map fun i => i.line.map (· + 1)) :=
    mapM_oneBased? Instruction.line h
  rw [Instruction.asmLines, hm]
  simp [Except.map, List.filterMap_map]

theorem asmLines_eq {steps : List Step} (h : ∀ s ∈ steps, s.line ≠ some lastLine) :
    asmLines steps = .ok (steps.map fun s => s.line.map (· + 1)) :=
  mapM_oneBased? Step.line h

/-! ## Positions -/

theorem mem_located {α : Type} {xs : List (Option α)} {x : α} {i : Nat} :
    (x, i) ∈ located xs ↔ xs[i]? = some (some x) := by
  unfold located
  rw [List.mem_filterMap]
  constructor
  · rintro ⟨⟨y, j⟩, hmem, heq⟩
    rw [List.mem_zipIdx_iff_getElem?] at hmem
    cases y with
    | none => simp at heq
    | some y =>
      obtain ⟨rfl, rfl⟩ : y = x ∧ j = i := by simpa using heq
      exact hmem
  · intro h
    exact ⟨(some x, i), List.mem_zipIdx_iff_getElem?.2 h, rfl⟩

theorem pairwise_located {α : Type} (xs : List (Option α)) :
    (located xs).Pairwise fun hit next => hit.2 < next.2 := by
  have hpositions : (xs.zipIdx.map Prod.snd).Pairwise (· < ·) := by
    rw [List.zipIdx_map_snd]
    exact List.pairwise_lt_range' 1
  refine List.Pairwise.filterMap _ (fun x y hxy hit hhit next hnext => ?_)
    (List.pairwise_map.1 hpositions)
  obtain ⟨a, -, rfl⟩ := Option.map_eq_some_iff.1 hhit
  obtain ⟨b, -, rfl⟩ := Option.map_eq_some_iff.1 hnext
  exact hxy

theorem positions_ofLocated (hits : List (UInt32 × Nat)) (line : UInt32) :
    (LineIndex.ofLocated hits).positions line =
      (hits.filter fun hit => hit.1 == line).map (·.2) := by
  induction hits with
  | nil => rfl
  | cons hit hits ih =>
    obtain ⟨l, j⟩ := hit
    have hfind : (LineIndex.ofLocated ((l, j) :: hits)).positions line =
        if line = l then j :: (LineIndex.ofLocated hits).positions l
        else (LineIndex.ofLocated hits).positions line := by
      simp only [LineIndex.positions, LineIndex.ofLocated, List.foldr_cons,
        SortedMap.find?_upsert]
      split <;> rfl
    rw [hfind, List.filter_cons]
    by_cases hl : line = l
    · rw [hl] at ih ⊢
      simp [ih]
    · simp [hl, Ne.symm hl, ih]

theorem mem_positions_ofLocated (hits : List (UInt32 × Nat)) (line : UInt32) (i : Nat) :
    i ∈ (LineIndex.ofLocated hits).positions line ↔ (line, i) ∈ hits := by
  simp [positions_ofLocated]

/-- The index of a trace lists a step under the line that it executed, and nowhere else. -/
theorem mem_positions_lineIndex {t : Trace} (h : t.Numbered) {index : LineIndex}
    (hindex : lineIndex t.steps = .ok index) (line : UInt32) (i : Nat) :
    i ∈ index.positions line ↔ ∃ s, t.steps[i]? = some s ∧ s.line.map (· + 1) = some line := by
  rw [lineIndex, asmLines_eq h] at hindex
  obtain rfl := Except.ok.inj hindex
  rw [mem_positions_ofLocated, mem_located, List.getElem?_map, Option.map_eq_some_iff]

/-- Those steps are listed in the order of the trace. -/
theorem pairwise_positions_lineIndex {t : Trace} (h : t.Numbered) {index : LineIndex}
    (hindex : lineIndex t.steps = .ok index) (line : UInt32) :
    (index.positions line).Pairwise (· < ·) := by
  rw [lineIndex, asmLines_eq h] at hindex
  obtain rfl := Except.ok.inj hindex
  rw [positions_ofLocated]
  exact List.pairwise_map.2 ((pairwise_located _).filter _)

theorem lineIndex_ok {t : Trace} (h : t.Numbered) : ∃ index, lineIndex t.steps = .ok index := by
  rw [lineIndex, asmLines_eq h]
  exact ⟨_, rfl⟩

end TvmDebug
