import TvmDebug.Proofs.Lines
import TvmDebug.Proofs.Memo
import TvmDebug.Stepper.Trace
/-! # The cursor of a trace stays on a step of the trace

`TraceStepper.Sound`: the selected step is a step of the trace held, and the line index held is that
of this trace. Another trace restores this whatever was selected before (`sound_setTrace`); a move
or a click that is not refused selects a step of the same trace (`TraceStepper.Moves`). A click can
always be answered, and one that is refused has looked its line up (`TraceStepper.Clicked`,
`click_ok`).

Any cursor moves over its positions by one rule, `Move.target?`: to a neighbour or to an end, unless
it is at the end already. The steps of a trace are such positions (`TraceStepper.move?_eq`). -/
set_option autoImplicit false

namespace TvmDebug

/-! ## Where a move goes -/

namespace Move

/-- Where a move goes from position `i` of `n`. -/
def target? (n i : Nat) : Move → Option Nat
  | .prev => if 0 < i then some (i - 1) else none
  | .next => if i + 1 < n then some (i + 1) else none
  | .first => if 0 < i then some 0 else none
  | .last => if i + 1 < n then some (n - 1) else none

theorem target?_spec {m : Move} {n i k : Nat} (hi : 0 < i → i < n) (h : m.target? n i = some k) :
    k < n ∧ k ≠ i := by
  cases m
  all_goals
    obtain ⟨hcan, hk⟩ := Option.ite_none_right_eq_some.1 h
    have hk := Option.some.inj hk
    omega

/-- A move to an end is refused at that end and nowhere else. -/
theorem target?_first (n i : Nat) : Move.first.target? n i = if 0 = i then none else some 0 := by
  by_cases hi : 0 = i
  · simp [target?, ← hi]
  · simp [target?, hi, Nat.pos_of_ne_zero (Ne.symm hi)]

theorem target?_last {n i : Nat} (h : i < n) :
    Move.last.target? n i = if n - 1 = i then none else some (n - 1) := by
  by_cases hi : n - 1 = i
  · have hend : ¬ i + 1 < n := by omega
    simp [target?, hi, hend]
  · have hbefore : i + 1 < n := by omega
    simp [target?, hi, hbefore]

end Move

namespace TraceStepper

/-! ## Sound steppers -/

/-- The trace held has numbered lines, the cursor is on one of its steps, and the index held is the
one of its steps. -/
structure Sound (s : TraceStepper) : Prop where
  numbered : ∀ t, s.trace = some t → t.value.Numbered
  selected_lt : s.total ≠ 0 → s.selected < s.total
  selected_zero : s.total = 0 → s.selected = 0
  index_current : ∀ k index, s.index.entry = some (k, index) →
    ∃ t, s.trace = some t ∧ t.id = k ∧ lineIndex t.value.steps = .ok index

/-- Another step of the same trace is selected. -/
structure Moves (s s' : TraceStepper) : Prop where
  trace : s'.trace = s.trace
  selected_lt : s'.selected < s.total
  sound : s'.Sound

variable {s s' : TraceStepper}

theorem sound_new (settings : StepperSettings) : (new settings).Sound where
  numbered := nofun
  selected_lt := fun h => absurd rfl h
  selected_zero := fun _ => rfl
  index_current := nofun

theorem sound_setTrace (h : s.Sound) {trace : Option (Shared Trace)}
    (htrace : ∀ t, trace = some t → t.value.Numbered) : (s.setTrace trace).Sound := by
  unfold setTrace
  split
  · exact h
  · exact ⟨htrace, Nat.pos_of_ne_zero, fun _ => rfl, nofun⟩

theorem moves_selected (h : s.Sound) {i : Nat} (hi : i < s.total) (mark : Option Transition) :
    s.Moves { s with selected := i, lastMove := mark } where
  trace := rfl
  selected_lt := hi
  sound := ⟨h.numbered, fun _ => hi, fun h0 => absurd h0 (Nat.ne_zero_of_lt hi), h.index_current⟩

theorem Moves.steps (h : s.Moves s') : s'.steps = s.steps := by
  rw [TraceStepper.steps, h.trace]
  rfl

/-! ## Moves -/

theorem Sound.selected_pos (h : s.Sound) (hpos : 0 < s.selected) : s.selected < s.total :=
  h.selected_lt fun hzero => Nat.ne_of_gt hpos (h.selected_zero hzero)

theorem canPrev_eq (h : s.Sound) : s.canPrev = decide (0 < s.selected) := by
  have hpos := h.selected_pos
  by_cases hsel : 0 < s.selected
  · have htotal : 0 < s.total := by omega
    simp [canPrev, hsel, htotal]
  · simp [canPrev, hsel]

theorem move?_eq (h : s.Sound) (m : Move) :
    s.move? m = (m.target? s.total s.selected).map fun i =>
      { s with selected := i, lastMove := some .button } := by
  have hto : s.move? m = (m.target? s.total s.selected).bind fun i => s.moveTo? i .button := by
    cases m <;> simp only [move?, canPrev_eq h, canNext, Move.target?, decide_eq_true_eq] <;>
      split <;> rfl
  rw [hto]
  cases htarget : m.target? s.total s.selected with
  | none => rfl
  | some i => exact if_pos (Move.target?_spec h.selected_pos htarget)

theorem moves_of_move? (h : s.Sound) {m : Move} (hmove : s.move? m = some s') : s.Moves s' := by
  rw [move?_eq h] at hmove
  obtain ⟨i, htarget, rfl⟩ := Option.map_eq_some_iff.1 hmove
  exact moves_selected h (Move.target?_spec h.selected_pos htarget).1 _

theorem moveTo?_eq_some {i : Nat} {t : Transition} (h : s.moveTo? i t = some s') :
    i < s.total ∧ s'.steps = s.steps ∧ s'.selected = i := by
  obtain ⟨⟨hlt, -⟩, hs'⟩ := Option.ite_none_right_eq_some.1 h
  obtain rfl := Option.some.inj hs'
  exact ⟨hlt, rfl, rfl⟩

theorem eq_some_of_settle {moved : Option TraceStepper}
    (h : s.settle moved = (.moved true, s')) : moved = some s' := by
  cases moved with
  | none => cases h
  | some s₁ => exact congrArg some (Prod.mk.inj h).2

theorem select?_of_lt {i : Nat} (h : i < s.total) : s.select? i = some { s with selected := i } :=
  if_pos h

theorem moves_of_select? (h : s.Sound) {i : Nat} (hselect : s.select? i = some s') :
    s.Moves s' := by
  unfold select? at hselect
  split at hselect
  · next hi =>
    obtain rfl := Option.some.inj hselect
    exact moves_selected h hi s.lastMove
  · cases hselect

/-! ## Clicks -/

theorem stepsAt_of_none (h : s.trace = none) (line : UInt32) : s.stepsAt line = .ok ([], s) := by
  unfold stepsAt
  split
  · rfl
  · next t ht => simp [h] at ht

theorem stepsAt_of_some {t : Shared Trace} (h : s.trace = some t) (line : UInt32) :
    s.stepsAt line = (s.index.getOrComputeM t.id fun _ => lineIndex t.value.steps).map
      fun (index, memo) => (index.positions line, { s with index := memo }) := by
  unfold stepsAt
  split
  · next ht => simp [h] at ht
  · next t' ht =>
    obtain rfl : t = t' := Option.some.inj (h.symm.trans ht)
    rfl

/-- The steps listed for a line are those that executed it, in the order of the trace. -/
theorem stepsAt_ok (h : s.Sound) (line : UInt32) :
    ∃ positions memo, s.stepsAt line = .ok (positions, { s with index := memo }) ∧
      ({ s with index := memo } : TraceStepper).Sound ∧ positions.Pairwise (· < ·) ∧
      ∀ i, i ∈ positions ↔ ∃ step, s.steps[i]? = some step ∧
        step.line.map (· + 1) = some line := by
  obtain htrace | ⟨t, htrace⟩ := Option.eq_none_or_eq_some s.trace
  · exact ⟨[], s.index, stepsAt_of_none htrace line, h, List.Pairwise.nil, by simp [steps, htrace]⟩
  · have hsteps : s.steps = t.value.steps := by rw [steps, htrace]
    have hnum := h.numbered t htrace
    rw [hsteps, stepsAt_of_some htrace]
    cases hget : s.index.get? t.id with
    | none =>
      obtain ⟨index, hindex⟩ := lineIndex_ok hnum
      refine ⟨index.positions line, ⟨some (t.id, index)⟩, ?_, ⟨h.numbered, h.selected_lt,
        h.selected_zero, ?_⟩, pairwise_positions_lineIndex hnum hindex line,
        mem_positions_lineIndex hnum hindex line⟩
      · rw [Memo.getOrComputeM_miss hget, hindex]
        rfl
      · intro k index' he
        obtain ⟨rfl, rfl⟩ := Prod.mk.inj (Option.some.inj he)
        exact ⟨t, htrace, rfl, hindex⟩
    | some index =>
      obtain ⟨t', ht', -, hindex⟩ := h.index_current _ _ (Memo.get?_eq_some_iff.1 hget)
      obtain rfl : t = t' := Option.some.inj (htrace.symm.trans ht')
      refine ⟨index.positions line, s.index, ?_, h, pairwise_positions_lineIndex hnum hindex line,
        mem_positions_lineIndex hnum hindex line⟩
      rw [Memo.getOrComputeM_hit hget]
      rfl

theorem mem_of_after? {positions : List Nat} {i j : Nat} (h : after? positions i = some j) :
    j ∈ positions := by
  unfold after? at h
  split at h
  · rcases Option.or_eq_some_iff.1 h with h | ⟨-, h⟩
    · exact List.mem_of_getElem? h
    · exact List.mem_of_head? h
  · exact List.mem_of_head? h

/-- What a click comes to: a step of the trace is selected, or the line was looked up in vain. -/
inductive Clicked (s : TraceStepper) : Bool → TraceStepper → Prop
  | refused (memo : Memo Nat LineIndex) (h : ({ s with index := memo } : TraceStepper).Sound) :
      Clicked s false { s with index := memo }
  | moved (s' : TraceStepper) (h : s.Moves s') : Clicked s true s'

theorem click_of_after?_some {line : UInt32} {positions : List Nat} {i : Nat}
    (h : s.stepsAt line = .ok (positions, s')) (hafter : after? positions s'.selected = some i) :
    s.click line = .ok (true, { s' with selected := i, lastMove := some .click }) := by
  rw [click, h]
  dsimp only [bind, Except.bind]
  rw [hafter]
  rfl

theorem click_of_after?_none {line : UInt32} {positions : List Nat}
    (h : s.stepsAt line = .ok (positions, s')) (hafter : after? positions s'.selected = none) :
    s.click line = .ok (false, s') := by
  rw [click, h]
  dsimp only [bind, Except.bind]
  rw [hafter]

/-- A click is always answered. -/
theorem click_ok (h : s.Sound) (line : UInt32) :
    ∃ yes s', s.click line = .ok (yes, s') ∧ s.Clicked yes s' := by
  obtain ⟨positions, memo, hok, hsound, -, hmem⟩ := stepsAt_ok h line
  cases hafter : after? positions s.selected with
  | none => exact ⟨_, _, click_of_after?_none hok hafter, .refused memo hsound⟩
  | some i =>
    obtain ⟨step, hstep, -⟩ := (hmem i).1 (mem_of_after? hafter)
    obtain ⟨hlt, -⟩ := List.getElem?_eq_some_iff.1 hstep
    obtain ⟨htrace, hsel, hs⟩ := moves_selected hsound hlt (some .click)
    exact ⟨_, _, click_of_after?_some hok hafter, .moved _ ⟨htrace, hsel, hs⟩⟩

theorem clicked_of_click (h : s.Sound) {line : UInt32} {yes : Bool}
    (hclick : s.click line = .ok (yes, s')) : s.Clicked yes s' := by
  obtain ⟨yes', s'', hok, hclicked⟩ := click_ok h line
  obtain ⟨rfl, rfl⟩ := Prod.mk.inj (Except.ok.inj (hok.symm.trans hclick))
  exact hclicked

theorem Clicked.sound {yes : Bool} (h : s.Clicked yes s') : s'.Sound := by
  cases h with
  | refused memo hsound => exact hsound
  | moved _ hmoves => exact hmoves.sound

theorem Clicked.steps {yes : Bool} (h : s.Clicked yes s') : s'.steps = s.steps := by
  cases h with
  | refused memo hsound => rfl
  | moved _ hmoves => exact hmoves.steps

end TraceStepper

end TvmDebug
