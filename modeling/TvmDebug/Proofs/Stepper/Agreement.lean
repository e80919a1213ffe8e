import TvmDebug.Proofs.Stepper.Reachable
/-! # The two cursors of a source stepper agree

In source mode the selected step is that of the stop under the cursor, or that of no stop: it is
never that of another stop. Only a picked step leads from the first case to the second; a move that
is not refused, and stops that are built anew, lead back (`cursors_agree`). -/
set_option autoImplicit false

namespace TvmDebug.SourceStepper

/-- The stops of `s'` were found for a key that the memo of `s` had no stops for. -/
def Rebuilds (s s' : SourceStepper) : Prop :=
  ∃ key stops, s'.found.entry = some (key, stops) ∧ s.found.get? key = none

variable {s s' : SourceStepper}

theorem not_rebuilds (h : s'.found = s.found) : ¬ s.Rebuilds s' := by
  rintro ⟨key, stops, hentry, hmiss⟩
  rw [h] at hentry
  rw [Memo.get?_eq_some_iff.2 hentry] at hmiss
  cases hmiss

theorem AtStop.not_offStops (h : s.AtStop) : ¬ s.OffStops := by
  obtain ⟨stop, hstop, hsel⟩ := h
  exact fun hoff => hoff stop (List.mem_of_getElem? hstop) hsel

theorem found_follow (s : SourceStepper) : s.follow.found = s.found := by
  unfold follow
  split <;> rfl

theorem Op.Picks.not_navigates {op : Op} (h : op.Picks) : ¬ op.Navigates := by
  intro hnav
  cases op with
  | select => exact hnav
  | click => exact hnav
  | _ => exact h

/-- Both cursors and their stops stay as they are. -/
structure Rests (s s' : SourceStepper) : Prop where
  stops : s'.stops = s.stops
  cursor : s'.cursor = s.cursor
  selected : s'.selected = s.selected

theorem Rests.offStops (h : s.Rests s') (hoff : s'.OffStops) : s.OffStops := by
  rwa [OffStops, h.stops, h.selected] at hoff

/-- A move that is not refused puts both cursors on one stop, where there are stops. -/
theorem Navigates.atStop (h : s.Navigates s') (hne : s.stops ≠ []) : s'.AtStop := by
  cases h with
  | stop k stop mark hstop => exact atStop_onStop hstop _
  | walk inner hnil hmoves => exact absurd hnil hne

theorem Refreshed.cursors {s₁ : SourceStepper} (h : s.Prepared s₁) (hr : Refreshed s s₁ s')
    (hne : s'.stops ≠ []) : s'.AtStop ∨ (s.Rests s' ∧ s'.found = s.found) := by
  cases hr with
  | dropped hmissing => exact absurd rfl hne
  | kept t m i stops hholds hentry hcondense hselected =>
    have hstops : s'.stops = s.stops := by rw [SourceStepper.stops, h.found]; rfl
    exact .inr ⟨⟨hstops, h.cursor, hselected.symm⟩, h.found⟩
  | rebuilt t m i stops hholds hmiss hcondense =>
    rw [stops_sync] at hne
    exact .inl (((h.cached_rebuilt hholds hcondense).sync rfl).2 hne)

/-- **Agreement of the cursors.** -/
theorem cursors_agree {settings : StepperSettings} (h : Reachable settings s) :
    (s.isSourceMode = true → (s.AtStop ∨ s.OffStops) ∧
      ∀ k stop, s.stops[k]? = some stop → stop.stepIndex = s.selected → k = s.cursor) ∧
    ∀ op a s', Step s op a s' →
      (s'.isSourceMode = true → s'.OffStops →
        (op.Picks ∧ a = .moved true) ∨ (s.isSourceMode = true ∧ s.OffStops ∧ s.Rests s')) ∧
      (s.isSourceMode = true → op.Navigates → a = .moved true →
        s'.isSourceMode = true ∧ s'.AtStop) ∧
      (s.Rebuilds s' → s'.isSourceMode = true → s'.AtStop) := by
  have hs := sound_of_reachable h
  refine ⟨fun _ => ⟨hs.aligned, fun k stop hk hsel => hs.eq_cursor hk hsel⟩,
    fun op a s' hstep => ?_⟩
  have hout := outcome_of_step hs hstep
  have hs' := hout.sound hs
  rw [hs.isSourceMode_iff, hs'.isSourceMode_iff]
  cases hout with
  | refused | missed | unchanged =>
    exact ⟨fun hne hoff => .inr ⟨hne, hoff, rfl, rfl, rfl⟩, fun _ _ hmoved => (nomatch hmoved),
      fun hre => absurd hre (not_rebuilds rfl)⟩
  | navigated _ _ hop hn =>
    refine ⟨fun hne' hoff => ?_, fun hne _ _ => ?_, fun hre => ?_⟩
    · rw [hn.stops] at hne'
      exact absurd hoff (hn.atStop hne').not_offStops
    · rw [hn.stops]
      exact ⟨hne, hn.atStop hne⟩
    · exact absurd hre (not_rebuilds hn.found)
  | picked _ inner hop hmoves =>
    exact ⟨fun _ _ => .inl ⟨hop, rfl⟩, fun _ hnav => absurd hnav hop.not_navigates,
      fun hre => absurd hre (not_rebuilds (found_follow (s.withInner inner)))⟩
  | set _ s₁ _ hp hr =>
    refine ⟨fun hne' hoff => ?_, fun _ _ hmoved => (nomatch hmoved), fun hre hne' => ?_⟩
    · obtain hat | ⟨hrests, -⟩ := hr.cursors hp hne'
      · exact absurd hoff hat.not_offStops
      · exact .inr ⟨hrests.stops ▸ hne', hrests.offStops hoff, hrests⟩
    · obtain hat | ⟨-, hfound⟩ := hr.cursors hp hne'
      · exact hat
      · exact absurd hre (not_rebuilds hfound)

/-- In the loop, the next source line joins the cursors and picking the first step parts them. -/
theorem cursors_agree_loop : Reachable {} loopStepper ∧
    (∃ s', Step loopStepper (.move .next) (.moved true) s' ∧ s'.isSourceMode = true ∧ s'.AtStop) ∧
    ∃ s', Step loopStepper (.select 0) (.moved true) s' ∧ s'.isSourceMode = true ∧ s'.OffStops ∧
      Op.Picks (.select 0) := by
  obtain ⟨-, hsteps⟩ := cursors_agree reachable_loop
  have hnext : Step loopStepper (.move .next) (.moved true) _ := ⟨trivial, rfl⟩
  obtain ⟨-, hnext', -⟩ := hsteps _ _ _ hnext
  let s₁ : SourceStepper := { loopStepper with inner := { loopStepper.inner with selected := 0 } }
  have hselect : Step loopStepper (.select 0) (.moved true) s₁ := ⟨trivial, rfl⟩
  have hoff : s₁.OffStops := by
    unfold OffStops
    decide
  obtain ⟨hpicks, -⟩ | ⟨-, hbefore, -⟩ := (hsteps _ _ _ hselect).1 rfl hoff
  · exact ⟨reachable_loop, ⟨_, hnext, hnext' rfl trivial rfl⟩, s₁, hselect, rfl, hoff, hpicks⟩
  · exact absurd rfl (hbefore ⟨3, 2⟩ (List.mem_cons_self ..))

end TvmDebug.SourceStepper
