import TvmDebug.Proofs.Stepper.Fallback
/-! # Jumps to the ends

Without stops a jump takes the selected step to the end of the trace. In source mode it takes the
cursor over source lines to the end, but whether it is refused is asked of this cursor alone: a
picked step that no stop stands for leaves the cursor behind, and a jump to the end where it stands
leaves the selected step where it is (`first_last_reach_iff`). -/
set_option autoImplicit false

namespace TvmDebug.SourceStepper

variable {s : SourceStepper}

/-- Without stops a jump takes the selected step to the end. -/
theorem selected_jump_of_stops_nil (h : s.Sound) (hnil : s.stops = []) :
    (s.settle (s.move? .first)).2.selected = 0 ∧
      (s.settle (s.move? .last)).2.selected = s.total - 1 := by
  have hinner : ∀ m, (s.settle (s.move? m)).2.selected =
      (m.target? s.total s.selected).getD s.selected := by
    intro m
    rw [move?_of_stops_nil hnil, TraceStepper.move?_eq h.inner]
    show _ = (m.target? s.inner.total s.inner.selected).getD s.inner.selected
    cases m.target? s.inner.total s.inner.selected <;> rfl
  rw [hinner, hinner]
  constructor
  · rw [Move.target?_first]
    by_cases hsel : 0 = s.selected
    · simp [← hsel]
    · simp [hsel]
  · by_cases htotal : s.total = 0
    · have hsel : s.selected = 0 := h.inner.selected_zero htotal
      simp [Move.target?, htotal, hsel]
    · have hlt : s.selected < s.total := h.inner.selected_lt htotal
      rw [Move.target?_last hlt]
      by_cases hsel : s.total - 1 = s.selected
      · simp [hsel]
      · simp [hsel]

/-- The cursor over source lines jumps to an end, and the selected step goes with it unless the
cursor was there already and the selected step was that of no stop. -/
theorem selected_jump {m : Move} {k : Nat} {stop : SourceStop} (h : s.Sound)
    (htarget : m.target? s.stops.length s.cursor = if k = s.cursor then none else some k)
    (hstop : s.stops[k]? = some stop) :
    (s.settle (s.moveFunc? m)).2.cursor = k ∧
      ((s.settle (s.moveFunc? m)).2.selected = stop.stepIndex ↔
        ¬ (s.cursor = k ∧ s.OffStops)) := by
  have hmove : s.moveFunc? m =
      if k = s.cursor then none else some (s.onStop k stop (some .button)) := by
    rw [moveFunc?_eq h, htarget]
    split
    · rfl
    · rw [Option.bind_some, hstop]
      rfl
  rw [hmove]
  by_cases hk : k = s.cursor
  · -- The jump is refused, and both cursors stay.
    rw [if_pos hk]
    have hat : s.selected = stop.stepIndex ↔ ¬ s.OffStops := by
      rw [hk] at hstop
      constructor
      · intro hsel hoff
        exact hoff stop (List.mem_of_getElem? hstop) hsel.symm
      · intro hoff
        obtain ⟨stop', hstop', hsel⟩ := h.aligned.resolve_right hoff
        rw [← hsel, Option.some.inj (hstop.symm.trans hstop')]
    refine ⟨hk.symm, hat.trans (not_congr ?_)⟩
    exact ⟨fun hoff => ⟨hk.symm, hoff⟩, fun hboth => hboth.2⟩
  · rw [if_neg hk]
    exact ⟨rfl, fun _ hboth => hk hboth.1.symm, fun _ => rfl⟩

/-- **Where jumps to the ends lead.** -/
theorem first_last_reach_iff {settings : StepperSettings} (h : Reachable settings s) :
    ∃ a b s₁ s₂, s.apply (.move .first) = .ok (a, s₁) ∧ s.apply (.move .last) = .ok (b, s₂) ∧
      (s.isSourceMode = false → s₁.selected = 0 ∧ s₂.selected = s.total - 1) ∧
      (s.isSourceMode = true → ∃ first last, s.stops.head? = some first ∧
        s.stops.getLast? = some last ∧ s₁.cursor = 0 ∧ s₂.cursor = s.stops.length - 1 ∧
        (s₁.selected = first.stepIndex ↔ ¬ (s.cursor = 0 ∧ s.OffStops)) ∧
        (s₂.selected = last.stepIndex ↔ ¬ (s.cursor = s.stops.length - 1 ∧ s.OffStops))) := by
  have hs := sound_of_reachable h
  refine ⟨_, _, _, _, rfl, rfl, fun hmode => ?_, fun hmode => ?_⟩
  · exact selected_jump_of_stops_nil hs (hs.stops_eq_nil hmode)
  · have hnil := hs.isSourceMode_iff.1 hmode
    have hmove : ∀ m, s.move? m = s.moveFunc? m := fun m => if_pos hmode
    have hfirst : s.stops.head? = some (s.stops.head hnil) := List.head?_eq_some_head hnil
    have hlast : s.stops.getLast? = some (s.stops.getLast hnil) :=
      List.getLast?_eq_some_getLast hnil
    obtain ⟨hcursor₁, hreach₁⟩ := selected_jump hs (Move.target?_first _ _)
      (List.head?_eq_getElem?.symm.trans hfirst)
    obtain ⟨hcursor₂, hreach₂⟩ := selected_jump hs (Move.target?_last (hs.cursor_lt hnil))
      (List.getLast?_eq_getElem?.symm.trans hlast)
    rw [hmove, hmove]
    exact ⟨_, _, hfirst, hlast, hcursor₁, hcursor₂, hreach₁, hreach₂⟩

/-! ## Jumps in the loop -/

/-- In source mode over the loop, on the first stop with the first step picked. -/
def strayStepper : SourceStepper :=
  { loopStepper with inner := { loopStepper.inner with selected := 0 } }

theorem reachable_stray : Reachable {} strayStepper := by
  have hselect : Step loopStepper (.select 0) (.moved true) strayStepper := ⟨trivial, rfl⟩
  exact reachable_loop.tail ⟨_, _, hselect⟩

/-- From there the jump to the first stop does not arrive, the one to the last stop does. -/
theorem first_last_reach_iff_stray : Reachable {} strayStepper ∧
    ∃ a b s₁ s₂, strayStepper.apply (.move .first) = .ok (a, s₁) ∧
      strayStepper.apply (.move .last) = .ok (b, s₂) ∧ s₁.selected ≠ 2 ∧ s₂.selected = 3 := by
  obtain ⟨a, b, s₁, s₂, hfirst, hlast, -, hsource⟩ := first_last_reach_iff reachable_stray
  obtain ⟨first, last, hhead, hend, -, -, hreach₁, hreach₂⟩ := hsource rfl
  obtain rfl : (⟨3, 2⟩ : SourceStop) = first := Option.some.inj hhead
  obtain rfl : (⟨7, 3⟩ : SourceStop) = last := Option.some.inj hend
  have hoff : strayStepper.OffStops := by
    unfold OffStops
    decide
  refine ⟨reachable_stray, a, b, s₁, s₂, hfirst, hlast, fun hsel => ?_, hreach₂.2 fun hboth => ?_⟩
  · exact hreach₁.1 hsel ⟨rfl, hoff⟩
  · exact absurd hboth.1 (by decide)

/-- The jump to the first stop is refused, with a step selected that is not the one of the stop. -/
theorem first_refused_off_stops : Reachable {} strayStepper ∧ strayStepper.total ≠ 0 ∧
    strayStepper.isSourceMode = true ∧ ∃ first s', strayStepper.stops.head? = some first ∧
      strayStepper.apply (.move .first) = .ok (.moved false, s') ∧
      s'.selected ≠ first.stepIndex :=
  ⟨reachable_stray, by decide, rfl, ⟨3, 2⟩, strayStepper, rfl, rfl, by decide⟩

end TvmDebug.SourceStepper
