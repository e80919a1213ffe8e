import TvmDebug.Proofs.Stepper.Direction
import TvmDebug.Proofs.Stepper.Setters
/-! # The source line shown with a picked step

A picked step takes the cursor over source lines along only if it is the last execution of a line.
The source line shown is therefore the one where the selected step last arrived at a last execution
(`SourceStepper.ArrivedAt`), whatever was picked since (`arrived_of_run`). -/
set_option autoImplicit false

namespace TvmDebug.SourceStepper

/-- Picks a step or a source line. -/
def Op.Places : Op → Prop
  | .select _ | .click _ | .findFunc _ => True
  | _ => False

/-- Some of the operations lead to the last execution of `line`, and none of those that follow leads
to the last execution of any line. -/
def ArrivedAt (s : SourceStepper) (last : UInt32 → Nat → Prop) (ops : List Op) (line : UInt32) :
    Prop :=
  ∃ before after s₁, ops = before ++ after ∧ run s before = .ok s₁ ∧ last line s₁.selected ∧
    ∀ more s₂ line', more <+: after → more ≠ [] → run s₁ more = .ok s₂ → ¬ last line' s₂.selected

/-- What a placed step leaves as it was, and where it leaves the cursors. -/
structure Placed (s s' : SourceStepper) : Prop where
  sound : s'.Sound
  inputs : s.SameInputs s'
  stops : s'.stops = s.stops
  cursors : s'.AtStop ∨ (s'.OffStops ∧ s'.cursor = s.cursor)

variable {s s' : SourceStepper} {op : Op} {line : UInt32}

/-! ## Stops and last executions -/

theorem Cached.mem_of_lastRan (h : s.Cached) {i : Nat} (hlast : s.LastRan line i) :
    (⟨line, i⟩ : SourceStop) ∈ s.stops := by
  obtain ⟨hran, hall⟩ := hlast
  obtain ⟨stop, hstop, rfl⟩ := List.mem_map.1 (h.collapsed.cover line i hran)
  have hle := h.collapsed.last stop hstop i hran
  have hge := hall stop.stepIndex (h.collapsed.runs stop hstop)
  obtain rfl : i = stop.stepIndex := Nat.le_antisymm hle hge
  exact hstop

theorem Sound.sourceLine_of_lastRan (h : s.Sound) (hlast : s.LastRan line s.selected) :
    s.sourceLine = some line := by
  obtain ⟨k, hk⟩ := List.mem_iff_getElem?.1 (h.mem_of_lastRan hlast)
  have hcursor : k = s.cursor := h.eq_cursor hk rfl
  rw [sourceLine, ← hcursor, hk]
  rfl

theorem Cached.lastRan_of_atStop (h : s.Cached) (hat : s.AtStop) :
    ∃ line, s.sourceLine = some line ∧ s.LastRan line s.selected := by
  obtain ⟨stop, hstop, hsel⟩ := hat
  refine ⟨stop.line, ?_, hsel ▸ h.lastRan (List.mem_of_getElem? hstop)⟩
  rw [sourceLine, hstop]
  rfl

theorem OffStops.not_lastRan (hoff : s.OffStops) (h : s.Cached) (line : UInt32) :
    ¬ s.LastRan line s.selected := by
  intro hlast
  exact hoff _ (h.mem_of_lastRan hlast) rfl

theorem SameInputs.ran (h : s.SameInputs s') {i : Nat} (hran : s.Ran line i) : s'.Ran line i := by
  obtain ⟨t, m, d, hholds, hexecutes⟩ := hran
  obtain ⟨t', m', d', hholds', ht, hm, hd⟩ := h.holds hholds
  refine ⟨t', m', d', hholds', ?_⟩
  rw [ht, hm, hd, h.primaryFile]
  exact hexecutes

theorem SameInputs.lastRan_iff (h : s.SameInputs s') (line : UInt32) (i : Nat) :
    s'.LastRan line i ↔ s.LastRan line i :=
  and_congr ⟨h.symm.ran, h.ran⟩ (forall_congr' fun _ => imp_congr_left ⟨h.symm.ran, h.ran⟩)

/-! ## One step -/

theorem placed_refl (h : s.Sound) : s.Placed s where
  sound := h
  inputs := sameInputs_refl s
  stops := rfl
  cursors := h.aligned.imp_right fun hoff => ⟨hoff, rfl⟩

theorem placed_follow (h : s.Sound) {inner : TraceStepper} (hmoves : s.inner.Moves inner) :
    s.Placed (s.withInner inner).follow := by
  have hsound := sound_follow h hmoves
  have htrace : inner.trace.map Shared.value = s.inner.trace.map Shared.value := by
    rw [hmoves.trace]
  unfold follow at hsound ⊢
  split at hsound
  · next k hk =>
    obtain ⟨hlt, hsel, -⟩ := List.findIdx?_eq_some_iff_getElem.1 hk
    exact ⟨hsound, ⟨rfl, rfl, htrace, rfl, rfl⟩, rfl,
      .inl ⟨_, List.getElem?_eq_getElem hlt, beq_iff_eq.1 hsel⟩⟩
  · next hnone =>
    refine ⟨hsound, ⟨rfl, rfl, htrace, rfl, rfl⟩, rfl, .inr ⟨fun stop hstop => ?_, rfl⟩⟩
    exact beq_eq_false_iff_ne.1 (List.findIdx?_eq_none_iff.1 hnone stop hstop)

theorem Navigates.placed (hn : s.Navigates s') (h : s.Sound) : s.Placed s' := by
  have hsound := hn.sound h
  cases hn with
  | stop k stop mark hstop =>
    exact ⟨hsound, ⟨rfl, rfl, rfl, rfl, rfl⟩, rfl, .inl (atStop_onStop hstop _)⟩
  | walk inner hnil hmoves =>
    have hnil' : (s.withInner inner).stops = [] := hnil
    exact ⟨hsound, ⟨rfl, rfl, congrArg _ hmoves.trace, rfl, rfl⟩, rfl,
      .inr ⟨offStops_of_nil hnil', rfl⟩⟩

theorem placed_settle (h : s.Sound) {moved : Option SourceStepper}
    (hmoved : ∀ s', moved = some s' → s.Placed s') : s.Placed (s.settle moved).2 := by
  cases moved with
  | none => exact placed_refl h
  | some s' => exact hmoved s' rfl

theorem placed_lookup (h : s.Sound) {memo : Memo Nat LineIndex}
    (hmemo : ({ s.inner with index := memo } : TraceStepper).Sound) :
    s.Placed (s.withInner { s.inner with index := memo }) where
  sound := sound_lookup h hmemo
  inputs := ⟨rfl, rfl, rfl, rfl, rfl⟩
  stops := rfl
  cursors := (placed_refl h).cursors

/-- Picking a step or a source line cannot fail. -/
theorem apply_placed (h : s.Sound) (hop : op.Places) :
    ∃ a s', s.apply op = .ok (a, s') ∧ s.Placed s' := by
  cases op with
  | select i =>
    refine ⟨_, _, rfl, placed_settle h fun s' hs' => ?_⟩
    obtain ⟨inner, hinner, rfl⟩ := Option.map_eq_some_iff.1 hs'
    exact placed_follow h (TraceStepper.moves_of_select? h.inner hinner)
  | findFunc line =>
    exact ⟨_, _, rfl, placed_settle h fun s' hs' => (navigates_of_findFunc? h hs').placed h⟩
  | click line =>
    obtain ⟨yes, inner, hok, hclicked⟩ := TraceStepper.click_ok h.inner line
    refine ⟨.moved yes, _, by rw [apply, click, hok]; rfl, ?_⟩
    cases hclicked with
    | refused memo hsound => exact placed_lookup h hsound
    | moved _ hmoves => exact placed_follow h hmoves
  | _ => exact hop.elim

/-! ## Runs -/

theorem run_append {ops : List Op} (h : run s ops = .ok s') (ops' : List Op) :
    run s (ops ++ ops') = run s' ops' := by
  rw [run, List.foldlM_append]
  show (run s ops >>= fun s => run s ops') = run s' ops'
  rw [h]
  rfl

theorem arrivedAt_end {last : UInt32 → Nat → Prop} {ops : List Op} (hrun : run s ops = .ok s')
    (hlast : last line s'.selected) : s.ArrivedAt last ops line := by
  refine ⟨ops, [], s', (List.append_nil ops).symm, hrun, hlast, fun more _ _ hmore hne => ?_⟩
  exact absurd (List.prefix_nil.1 hmore) hne

theorem ArrivedAt.append {last : UInt32 → Nat → Prop} {ops : List Op}
    (h : s.ArrivedAt last ops line) (hrun : run s (ops ++ [op]) = .ok s')
    (hnot : ∀ line', ¬ last line' s'.selected) : s.ArrivedAt last (ops ++ [op]) line := by
  obtain ⟨before, after, s₁, rfl, hbefore, hlast, hafter⟩ := h
  refine ⟨before, after ++ [op], s₁, List.append_assoc .., hbefore, hlast, ?_⟩
  intro more s₂ line' hmore hne hs₂
  obtain rfl | hmore := List.prefix_concat_iff.1 hmore
  · -- All operations are done, so that this is the stepper at the end.
    rw [List.append_assoc, run_append hbefore, hs₂] at hrun
    rw [Except.ok.inj hrun]
    exact hnot line'
  · exact hafter more s₂ line' hmore hne hs₂

/-- The source line shown is the one last arrived at. -/
theorem arrived_of_run (h : s.Sound) (hat : s.AtStop) {ops : List Op}
    (hops : ∀ op ∈ ops, op.Places) :
    ∃ s' line, run s ops = .ok s' ∧ s'.Sound ∧ s.SameInputs s' ∧ s'.stops = s.stops ∧
      s'.sourceLine = some line ∧ s.ArrivedAt s.LastRan ops line := by
  -- The induction is on the last operation, which alone tells whether the line is a new one.
  induction ops using List.reverseRecOn with
  | nil =>
    obtain ⟨line, hline, hlast⟩ := h.lastRan_of_atStop hat
    exact ⟨s, line, rfl, h, sameInputs_refl s, rfl, hline, arrivedAt_end rfl hlast⟩
  | append_singleton ops op ih =>
    obtain ⟨hops, hop⟩ := List.forall_mem_append.1 hops
    obtain ⟨s₁, line, hrun, hsound, hinputs, hstops, hline, harrived⟩ := ih hops
    obtain ⟨a, s', happly, hplaced⟩ := apply_placed hsound (hop op List.mem_cons_self)
    have hrun' : run s (ops ++ [op]) = .ok s' := by
      rw [run_append hrun, run_cons happly]
      rfl
    have hinputs' := hinputs.trans hplaced.inputs
    have hstops' := hplaced.stops.trans hstops
    obtain hat' | ⟨hoff, hcursor⟩ := hplaced.cursors
    · obtain ⟨line', hline', hlast'⟩ := hplaced.sound.lastRan_of_atStop hat'
      have hlast := (hinputs'.lastRan_iff _ _).1 hlast'
      exact ⟨s', line', hrun', hplaced.sound, hinputs', hstops', hline', arrivedAt_end hrun' hlast⟩
    · have hnot : ∀ line', ¬ s.LastRan line' s'.selected := by
        intro line' hlast
        exact hoff.not_lastRan hplaced.sound.toCached line' ((hinputs'.lastRan_iff _ _).2 hlast)
      have hline' : s'.sourceLine = some line := by
        rw [sourceLine, hplaced.stops, hcursor]
        exact hline
      exact ⟨s', line, hrun', hplaced.sound, hinputs', hstops', hline', harrived.append hrun' hnot⟩

/-- A source line that is executed is arrived at when it is picked. -/
theorem arrives_of_findFunc (h : s.Sound) {i : Nat} (hran : s.Ran line i) :
    ∃ s', run s [.findFunc line] = .ok s' ∧ s.LastRan line s'.selected := by
  obtain ⟨k, hk⟩ : ∃ k, (s.stops.findIdx? fun stop => stop.line == line) = some k := by
    obtain ⟨stop, hstop, hline⟩ := List.mem_map.1 (h.collapsed.cover line i hran)
    refine Option.isSome_iff_exists.1 ?_
    rw [List.findIdx?_isSome, List.any_eq_true]
    exact ⟨stop, hstop, beq_iff_eq.2 hline⟩
  obtain ⟨hlt, hline, -⟩ := List.findIdx?_eq_some_iff_getElem.1 hk
  have hstop := List.getElem?_eq_getElem hlt
  have hfind : s.findFunc? line = some (s.onStop k s.stops[k] (some .click)) := by
    rw [findFunc?_eq h.toCached, hk, Option.bind_some, hstop]
    rfl
  refine ⟨s.onStop k s.stops[k] (some .click), ?_, ?_⟩
  · rw [run, List.foldlM_cons, apply, hfind]
    rfl
  · rw [← beq_iff_eq.1 hline]
    exact h.lastRan (List.getElem_mem hlt)

end TvmDebug.SourceStepper
