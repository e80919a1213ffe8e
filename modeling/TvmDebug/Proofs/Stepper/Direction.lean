import TvmDebug.Proofs.Gas
import TvmDebug.Proofs.Stepper.Fallback
/-! # Which way the selected step goes

Over the steps of a trace a move to the next one goes forward and a move to the one before goes
back. Over source lines it goes to the next line or the one before in the order of their first
executions, but selects the step of the last one (`SourceStepper.Ran`, `SourceStepper.RanBefore`,
`SourceStepper.LastRan`): whether this lies ahead depends on whether the line is executed again
(`SourceStepper.move_direction`). Gas follows the selected step either way. -/
set_option autoImplicit false

namespace TvmDebug.SourceStepper

variable {s s' : SourceStepper}

/-! ## The order of the source lines -/

/-- The inputs held tell that step `i` of the trace executes a source line. -/
def Ran (s : SourceStepper) (line : UInt32) (i : Nat) : Prop :=
  ∃ t m d, s.Holds t m d ∧ t.value.Executes m.value d.value s.primaryFile i line

/-- The first execution of `line` is before that of `line'`. -/
def RanBefore (s : SourceStepper) (line line' : UInt32) : Prop :=
  ∃ i, s.Ran line i ∧ ∀ j, s.Ran line' j → i < j

/-- The last execution of `line` is at step `i`. -/
def LastRan (s : SourceStepper) (line : UInt32) (i : Nat) : Prop :=
  s.Ran line i ∧ ∀ j, s.Ran line j → j ≤ i

theorem Cached.collapsed (h : s.Cached) : Collapsed s.Ran s.stops := by
  cases hentry : s.found.entry with
  | none =>
    have hnot : ∀ line i, ¬ s.Ran line i := by
      rintro line i ⟨t, m, d, hholds, -⟩
      obtain ⟨stops, hfound⟩ := h.found_of_holds t m d hholds
      rw [hentry] at hfound
      cases hfound
    rw [stops_of_entry_none hentry]
    exact ⟨nofun, nofun, fun line i hran => absurd hran (hnot line i), List.Pairwise.nil⟩
  | some e =>
    obtain ⟨t, m, d, hholds, -, hcondense⟩ := h.holds_of_found e.1 e.2 hentry
    have hcollapsed := condense_collapsed (h.inner.numbered t hholds.trace)
      (h.numbered d hholds.instructions) hcondense
    rw [stops_of_entry hentry]
    refine hcollapsed.congr fun line i => ⟨fun hran => ⟨t, m, d, hholds, hran⟩, ?_⟩
    rintro ⟨t', m', d', hholds', hran⟩
    obtain ⟨rfl, rfl, rfl⟩ := hholds.unique hholds'
    exact hran

theorem Cached.ranBefore (h : s.Cached) {k k' : Nat} {stop stop' : SourceStop} (hlt : k < k')
    (hk : s.stops[k]? = some stop) (hk' : s.stops[k']? = some stop') :
    s.RanBefore stop.line stop'.line := by
  obtain ⟨hlength, rfl⟩ := List.getElem?_eq_some_iff.1 hk
  obtain ⟨hlength', rfl⟩ := List.getElem?_eq_some_iff.1 hk'
  have horder := List.pairwise_map.1 h.collapsed.order
  exact List.pairwise_iff_getElem.1 horder k k' hlength hlength' hlt

theorem Cached.lastRan (h : s.Cached) {stop : SourceStop} (hstop : stop ∈ s.stops) :
    s.LastRan stop.line stop.stepIndex :=
  ⟨h.collapsed.runs stop hstop, h.collapsed.last stop hstop⟩

/-- The last execution lies ahead of a step exactly when the line runs again after the step. -/
theorem LastRan.lt_iff {line : UInt32} {i : Nat} (h : s.LastRan line i) (n : Nat) :
    n < i ↔ ∃ j, n < j ∧ s.Ran line j := by
  obtain ⟨hran, hlast⟩ := h
  constructor
  · intro hlt
    exact ⟨i, hlt, hran⟩
  · rintro ⟨j, hlt, hj⟩
    exact Nat.lt_of_lt_of_le hlt (hlast j hj)

/-! ## One move -/

/-- Gas follows the selected step. -/
theorem Navigates.usedGas_le (h : s.Navigates s') (hgas : exactGas s.inner.steps < 2 ^ 64) :
    (s.selected ≤ s'.selected → s.usedGas ≤ s'.usedGas) ∧
      (s'.selected ≤ s.selected → s'.usedGas ≤ s.usedGas) := by
  have hafter : s'.usedGas = gasBefore s.inner.steps s'.selected := by
    rw [← h.steps]
    rfl
  rw [hafter]
  exact ⟨gasBefore_le hgas, gasBefore_le hgas⟩

theorem target?_of_walk (hs : s.Sound) (hnil : s.stops = []) {m : Move}
    (h : s.move? m = some s') : m.target? s.total s.selected = some s'.selected := by
  rw [move?_of_stops_nil hnil, TraceStepper.move?_eq hs.inner, Option.map_map,
    Option.map_eq_some_iff] at h
  obtain ⟨i, hi, rfl⟩ := h
  exact hi

theorem target?_of_stop (hs : s.Sound) (hmode : s.isSourceMode = true) {m : Move}
    (h : s.move? m = some s') :
    ∃ stop', m.target? s.stops.length s.cursor = some s'.cursor ∧
      s.stops[s'.cursor]? = some stop' ∧ s'.selected = stop'.stepIndex := by
  have hmove : s.move? m = s.moveFunc? m := if_pos hmode
  rw [hmove, moveFunc?_eq hs] at h
  obtain ⟨k, hk, h⟩ := Option.bind_eq_some_iff.1 h
  obtain ⟨stop', hstop', rfl⟩ := Option.map_eq_some_iff.1 h
  exact ⟨stop', hk, hstop', rfl⟩

theorem Sound.selected_ne_stop (h : s.Sound) {k : Nat} {stop : SourceStop} (hk : k ≠ s.cursor)
    (hstop : s.stops[k]? = some stop) : stop.stepIndex ≠ s.selected :=
  fun hsel => hk (h.eq_cursor hstop hsel)

/-- **Which way a move goes.** -/
theorem move_direction {settings : StepperSettings} (h : Reachable settings s) {m : Move}
    (hstep : Step s (.move m) (.moved true) s') :
    (s.isSourceMode = false →
      (m = .next → s'.selected = s.selected + 1) ∧ (m = .prev → s'.selected + 1 = s.selected)) ∧
    (s.isSourceMode = true → ∃ stop stop', s.stops[s.cursor]? = some stop ∧
      s.stops[s'.cursor]? = some stop' ∧ s'.selected = stop'.stepIndex ∧
      s.LastRan stop'.line s'.selected ∧
      (m = .next → s'.cursor = s.cursor + 1 ∧ s.RanBefore stop.line stop'.line) ∧
      (m = .prev → s'.cursor + 1 = s.cursor ∧ s.RanBefore stop'.line stop.line) ∧
      s'.selected ≠ s.selected ∧
      (s.selected < s'.selected ↔ ∃ i, s.selected < i ∧ s.Ran stop'.line i)) ∧
    (exactGas s.inner.steps < 2 ^ 64 →
      (s.selected ≤ s'.selected → s.usedGas ≤ s'.usedGas) ∧
        (s'.selected ≤ s.selected → s'.usedGas ≤ s.usedGas)) := by
  have hs := sound_of_reachable h
  have hmove := move?_of_step hstep
  refine ⟨fun hmode => ?_, fun hmode => ?_, (navigates_of_move? hs hmove).usedGas_le⟩
  · have htarget := target?_of_walk hs (hs.stops_eq_nil hmode) hmove
    constructor
    · rintro rfl
      exact (Option.some.inj (Option.ite_none_right_eq_some.1 htarget).2).symm
    · rintro rfl
      obtain ⟨hpos, hsel⟩ := Option.ite_none_right_eq_some.1 htarget
      have := Option.some.inj hsel
      omega
  · obtain ⟨stop', htarget, hstop', hsel⟩ := target?_of_stop hs hmode hmove
    have hstop := List.getElem?_eq_getElem (hs.cursor_lt (hs.isSourceMode_iff.1 hmode))
    have hlast := hs.lastRan (List.mem_of_getElem? hstop')
    rw [← hsel] at hlast
    refine ⟨_, stop', hstop, hstop', hsel, hlast, ?_, ?_, ?_, hlast.lt_iff s.selected⟩
    · rintro rfl
      have hcursor := Option.some.inj (Option.ite_none_right_eq_some.1 htarget).2
      exact ⟨hcursor.symm, hs.ranBefore (by omega) hstop hstop'⟩
    · rintro rfl
      obtain ⟨hpos, hcursor⟩ := Option.ite_none_right_eq_some.1 htarget
      have hback := Option.some.inj hcursor
      exact ⟨by omega, hs.ranBefore (by omega) hstop' hstop⟩
    · rw [hsel]
      exact hs.selected_ne_stop (Move.target?_spec hs.cursor_pos htarget).2 hstop'

/-! ## There and back over two source lines -/

def returnTrace : Shared Trace where
  id := 0
  value := ⟨[(Step.of "PUSHINT" 18).withLine 9, (Step.of "PUSHINT" 18).withLine 19,
    (Step.of "PUSHINT" 18).withLine 9]⟩

/-- Source stepping over a line that is executed before and after another one. -/
def returnStepper : SourceStepper where
  inner := ⟨some returnTrace, 2, none, defaultResetMs, Memo.empty⟩
  enabled := true
  primaryFile := defaultSourceFile
  mapping := some loopMapping
  instructions := some loopSections
  found := ⟨some (⟨0, 0, 0, defaultSourceFile⟩, [⟨3, 2⟩, ⟨7, 1⟩])⟩
  cursor := 0

theorem reachable_return : Reachable {} returnStepper := by
  have htrace : returnTrace.value.Numbered := by
    unfold Trace.Numbered
    decide
  have henabled : Step (loaded {} returnTrace loopMapping loopSections) (.setEnabled true) .nothing
      returnStepper := ⟨trivial, rfl⟩
  exact (reachable_loaded {} loopMapping htrace numbered_loopSections).tail ⟨_, _, henabled⟩

/-- The next line there was executed later, and its step lies before. -/
theorem move_direction_return : Reachable {} returnStepper ∧
    ∃ s', Step returnStepper (.move .next) (.moved true) s' ∧ returnStepper.RanBefore 3 7 ∧
      s'.selected = 1 ∧ s'.usedGas ≤ returnStepper.usedGas := by
  have hnext : Step returnStepper (.move .next) (.moved true) _ := ⟨trivial, rfl⟩
  obtain ⟨-, hsource, hgas⟩ := move_direction reachable_return hnext
  obtain ⟨stop, stop', hstop, hstop', hsel, -, hforward, -⟩ := hsource rfl
  obtain rfl : (⟨3, 2⟩ : SourceStop) = stop := Option.some.inj hstop
  obtain rfl : (⟨7, 1⟩ : SourceStop) = stop' := Option.some.inj hstop'
  have hfits : exactGas returnStepper.inner.steps < 2 ^ 64 := exactGas_lt (by decide)
  exact ⟨reachable_return, _, hnext, (hforward rfl).2, hsel, (hgas hfits).2 (by decide)⟩

/-- Forward over source lines and back in the trace, then the other way round. -/
theorem next_goes_back_return : Reachable {} returnStepper ∧ returnStepper.isSourceMode = true ∧
    ∃ s₁ s₂, returnStepper.apply (.move .next) = .ok (.moved true, s₁) ∧
      s₁.selected < returnStepper.selected ∧ s₁.usedGas < returnStepper.usedGas ∧
      s₁.apply (.move .prev) = .ok (.moved true, s₂) ∧ s₁.usedGas < s₂.usedGas :=
  ⟨reachable_return, rfl, _, _, rfl, by decide, by decide, rfl, by decide⟩

end TvmDebug.SourceStepper
