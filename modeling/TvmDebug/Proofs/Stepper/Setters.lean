import TvmDebug.Proofs.Stepper.Fallback
/-! # The order in which inputs are set

As long as only inputs are set, the cursor over source lines is at the front, the selected step goes
with it and no move is marked (`SourceStepper.AtFront`). What is shown then depends on nothing but
the inputs held in the end (`setters_in_any_order`). -/
set_option autoImplicit false

namespace TvmDebug.SourceStepper

/-- Sets an input. -/
def Op.Sets : Op → Prop
  | .setTrace _ | .setDebugInfo _ _ | .setEnabled _ | .setPrimaryFile _ => True
  | _ => False

/-- Each operation is admissible where it is done. -/
def Admits (s : SourceStepper) : List Op → Prop
  | [] => True
  | op :: ops => op.Admissible s ∧ ∀ a s', s.apply op = .ok (a, s') → s'.Admits ops

/-- The cursor over source lines is at the front, as after its inputs were set. -/
structure AtFront (s : SourceStepper) : Prop extends Sound s where
  cursor_front : s.cursor = 0
  unmarked : s.inner.lastMove = none
  atStop : s.stops ≠ [] → s.AtStop

/-- The same inputs are held. -/
structure SameInputs (s s' : SourceStepper) : Prop where
  enabled : s'.enabled = s.enabled
  primaryFile : s'.primaryFile = s.primaryFile
  trace : s'.inner.trace.map Shared.value = s.inner.trace.map Shared.value
  mapping : s'.mapping.map Shared.value = s.mapping.map Shared.value
  instructions : s'.instructions.map Shared.value = s.instructions.map Shared.value

/-- The same source lines are shown. -/
structure SameLine (s s' : SourceStepper) : Prop where
  stops : s'.stops = s.stops
  isSourceMode : s'.isSourceMode = s.isSourceMode
  cursor : s'.cursor = s.cursor
  sourceLine : s'.sourceLine = s.sourceLine

/-- The same step is shown. -/
structure SameStep (s s' : SourceStepper) : Prop where
  selected : s'.selected = s.selected
  current : s'.current = s.current
  usedGas : s'.usedGas = s.usedGas
  highlightLine : s'.highlightLine = s.highlightLine
  canPrev : s'.canPrev = s.canPrev
  canNext : s'.canNext = s.canNext
  transition : s'.transition = s.transition

variable {s s' s₁ : SourceStepper} {op : Op} {a : Answer}

theorem admits_cons {ops : List Op} (hop : op.Admissible s) (h : s.apply op = .ok (a, s'))
    (hrest : s'.Admits ops) : s.Admits (op :: ops) := by
  refine ⟨hop, fun a' s'' h' => ?_⟩
  obtain ⟨-, rfl⟩ := Prod.mk.inj (Except.ok.inj (h.symm.trans h'))
  exact hrest

/-! ## Setters leave the cursor at the front -/

theorem cursor_sync (s : SourceStepper) : s.sync.cursor = s.cursor := by
  unfold sync
  split <;> rfl

theorem lastMove_sync (s : SourceStepper) : s.sync.inner.lastMove = s.inner.lastMove := by
  unfold sync
  split
  · next stop hstop =>
    show ((s.inner.select? stop.stepIndex).getD s.inner).lastMove = s.inner.lastMove
    unfold TraceStepper.select?
    split <;> rfl
  · rfl

theorem atFront_new (settings : StepperSettings) : (new settings).AtFront where
  toSound := sound_new settings
  cursor_front := rfl
  unmarked := rfl
  atStop := fun hne => absurd rfl hne

theorem AtFront.refreshed (hs : s.AtFront) (h : s.Prepared s₁)
    (hmark : s₁.inner.lastMove = none) (hr : Refreshed s s₁ s') : s'.AtFront := by
  have hsound := hr.sound hs.toSound h
  cases hr with
  | dropped => exact ⟨hsound, rfl, hmark, fun hne => absurd rfl hne⟩
  | kept t m i stops hholds hentry hcondense hselected =>
    have hstops : s'.stops = s.stops := by rw [SourceStepper.stops, h.found]; rfl
    refine ⟨hsound, h.cursor.trans hs.cursor_front, hmark, fun hne => ?_⟩
    rw [AtStop, hstops, h.cursor, ← hselected]
    exact hs.atStop (hstops ▸ hne)
  | rebuilt t m i stops hholds hmiss hcondense =>
    refine ⟨hsound, cursor_sync _, (lastMove_sync _).trans hmark, fun hne => ?_⟩
    rw [stops_sync] at hne
    exact ((h.cached_rebuilt hholds hcondense).sync rfl).2 hne

theorem AtFront.refresh (hs : s.AtFront) (h : s.Prepared s₁) (hmark : s₁.inner.lastMove = none) :
    ∃ s', s₁.refresh.map (Answer.nothing, ·) = .ok (.nothing, s') ∧ s'.AtFront := by
  obtain ⟨s', hok, hr⟩ := h.refresh hs.toSound
  refine ⟨s', ?_, hs.refreshed h hmark hr⟩
  rw [hok]
  rfl

theorem AtFront.apply (hs : s.AtFront) (hsets : op.Sets) (hop : op.Admissible s) :
    ∃ s', s.apply op = .ok (.nothing, s') ∧ s'.AtFront := by
  cases op with
  | setTrace trace =>
    have hmark : (s.inner.setTrace trace).lastMove = none := by
      unfold TraceStepper.setTrace
      split
      · exact hs.unmarked
      · rfl
    exact hs.refresh (prepared_setTrace hs.toSound hop) hmark
  | setDebugInfo mapping instructions =>
    obtain ⟨hnum, hm, hi⟩ := hop
    exact hs.refresh (prepared_setDebugInfo hs.toSound hnum hm hi) hs.unmarked
  | setEnabled enabled =>
    by_cases heq : s.enabled = enabled
    · refine ⟨s, ?_, hs⟩
      rw [SourceStepper.apply, setEnabled, if_pos heq]
      rfl
    · rw [SourceStepper.apply, setEnabled, if_neg heq]
      exact hs.refresh (prepared_setEnabled hs.toSound heq) hs.unmarked
  | setPrimaryFile file =>
    exact hs.refresh (prepared_setPrimaryFile hs.toSound file) hs.unmarked
  | _ => exact hsets.elim

theorem AtFront.run (hs : s.AtFront) {ops : List Op} (hsets : ∀ op ∈ ops, op.Sets)
    (hops : s.Admits ops) : ∃ s', run s ops = .ok s' ∧ s'.AtFront := by
  induction ops generalizing s with
  | nil => exact ⟨s, rfl, hs⟩
  | cons op ops ih =>
    obtain ⟨hop, hrest⟩ := hops
    obtain ⟨hset, hsets⟩ := List.forall_mem_cons.1 hsets
    obtain ⟨s₁, happly, hs₁⟩ := hs.apply hset hop
    obtain ⟨s', hrun, hs'⟩ := ih hs₁ hsets (hrest _ s₁ happly)
    exact ⟨s', by rw [run_cons happly, hrun], hs'⟩

/-! ## What is shown at the front -/

theorem AtFront.head?_stops (h : s.AtFront) (hne : s.stops ≠ []) :
    ∃ stop, s.stops.head? = some stop ∧ stop.stepIndex = s.selected := by
  obtain ⟨stop, hstop, hsel⟩ := h.atStop hne
  rw [h.cursor_front, ← List.head?_eq_getElem?] at hstop
  exact ⟨stop, hstop, hsel⟩

theorem AtFront.transition_eq_none (h : s.AtFront) : s.transition = none := by
  rw [transition, TraceStepper.transition, h.unmarked]
  exact ite_self _

theorem Cached.condense_eq (h : s.Cached) {t : Shared Trace} {m : Shared FuncMapping}
    {i : Shared SectionInstructions} (hholds : s.Holds t m i) :
    condense t.value m.value i.value s.primaryFile = .ok s.stops := by
  obtain ⟨stops, hentry⟩ := h.found_of_holds t m i hholds
  obtain ⟨t', m', i', hholds', -, hcondense⟩ := h.holds_of_found _ _ hentry
  obtain ⟨rfl, rfl, rfl⟩ := hholds.unique hholds'
  rw [stops_of_entry hentry]
  exact hcondense

theorem Cached.holds_of_stops (h : s.Cached) (hne : s.stops ≠ []) : ∃ t m i, s.Holds t m i := by
  cases hentry : s.found.entry with
  | none => exact absurd (stops_of_entry_none hentry) hne
  | some e =>
    obtain ⟨t, m, i, hholds, -⟩ := h.holds_of_found e.1 e.2 hentry
    exact ⟨t, m, i, hholds⟩

theorem sameInputs_refl (s : SourceStepper) : s.SameInputs s := ⟨rfl, rfl, rfl, rfl, rfl⟩

theorem SameInputs.symm (h : s.SameInputs s') : s'.SameInputs s :=
  ⟨h.enabled.symm, h.primaryFile.symm, h.trace.symm, h.mapping.symm, h.instructions.symm⟩

theorem SameInputs.trans {s'' : SourceStepper} (h : s.SameInputs s') (h' : s'.SameInputs s'') :
    s.SameInputs s'' :=
  ⟨h'.enabled.trans h.enabled, h'.primaryFile.trans h.primaryFile, h'.trace.trans h.trace,
    h'.mapping.trans h.mapping, h'.instructions.trans h.instructions⟩

theorem sameInputs_sync (s : SourceStepper) : s.SameInputs s.sync := by
  unfold sync
  split
  · next stop hstop =>
    refine ⟨rfl, rfl, ?_, rfl, rfl⟩
    show ((s.inner.select? stop.stepIndex).getD s.inner).trace.map Shared.value = _
    unfold TraceStepper.select?
    split <;> rfl
  · exact sameInputs_refl s

theorem sameInputs_of_refresh {s s' : SourceStepper} (h : s.refresh = .ok s') :
    s.SameInputs s' := by
  obtain hinputs | ⟨⟨t, m, i⟩, hinputs⟩ := Option.eq_none_or_eq_some s.inputs?
  · rw [refresh_of_missing hinputs] at h
    obtain rfl := Except.ok.inj h
    split
    · exact ⟨rfl, rfl, rfl, rfl, rfl⟩
    · exact sameInputs_refl s
  · rw [refresh_of_holds (inputs?_eq_some_iff.1 hinputs)] at h
    split at h
    · obtain rfl := Except.ok.inj h
      exact sameInputs_refl s
    · obtain ⟨⟨stops, found⟩, -, rfl⟩ := exists_of_map_eq_ok h
      have hsync := sameInputs_sync { s with found := found, cursor := 0 }
      exact ⟨hsync.enabled, hsync.primaryFile, hsync.trace, hsync.mapping, hsync.instructions⟩

theorem SameInputs.steps (h : s.SameInputs s') : s'.inner.steps = s.inner.steps := by
  have hsteps : ∀ s : TraceStepper,
      s.steps = ((s.trace.map Shared.value).map Trace.steps).getD [] := by
    intro s
    unfold TraceStepper.steps
    cases s.trace <;> rfl
  rw [hsteps, hsteps, h.trace]

theorem SameInputs.holds (h : s.SameInputs s') {t : Shared Trace} {m : Shared FuncMapping}
    {i : Shared SectionInstructions} (hholds : s.Holds t m i) :
    ∃ t' m' i', s'.Holds t' m' i' ∧ t'.value = t.value ∧ m'.value = m.value ∧
      i'.value = i.value := by
  have htrace := h.trace
  have hmapping := h.mapping
  have hinstructions := h.instructions
  rw [hholds.trace] at htrace
  rw [hholds.mapping] at hmapping
  rw [hholds.instructions] at hinstructions
  obtain ⟨t', ht, htv⟩ := Option.map_eq_some_iff.1 htrace
  obtain ⟨m', hm, hmv⟩ := Option.map_eq_some_iff.1 hmapping
  obtain ⟨i', hi, hiv⟩ := Option.map_eq_some_iff.1 hinstructions
  exact ⟨t', m', i', ⟨h.enabled.trans hholds.enabled, ht, hm, hi⟩, htv, hmv, hiv⟩

theorem SameInputs.stops_eq_nil (h : s.SameInputs s') (hs' : s'.Cached) (hs : s.Cached)
    (hnil : s.stops = []) : s'.stops = [] := by
  by_contra hne
  obtain ⟨t', m', i', hholds'⟩ := hs'.holds_of_stops hne
  obtain ⟨t, m, i, hholds, ht, hm, hi⟩ := h.symm.holds hholds'
  have hcondense := hs.condense_eq hholds
  rw [ht, hm, hi, ← h.primaryFile, hs'.condense_eq hholds', hnil] at hcondense
  exact hne (Except.ok.inj hcondense)

theorem SameInputs.stops (h : s.SameInputs s') (hs : s.Cached) (hs' : s'.Cached) :
    s'.stops = s.stops := by
  by_cases hnil : s.stops = []
  · rw [hnil, h.stops_eq_nil hs' hs hnil]
  · obtain ⟨t, m, i, hholds⟩ := hs.holds_of_stops hnil
    obtain ⟨t', m', i', hholds', ht, hm, hi⟩ := h.holds hholds
    have hcondense := hs'.condense_eq hholds'
    rw [ht, hm, hi, h.primaryFile, hs.condense_eq hholds] at hcondense
    exact (Except.ok.inj hcondense).symm

theorem SameInputs.sameLine (h : s.SameInputs s') (hs : s.AtFront) (hs' : s'.AtFront) :
    s.SameLine s' := by
  have hstops := h.stops hs.toCached hs'.toCached
  have hcursor : s'.cursor = s.cursor := hs'.cursor_front.trans hs.cursor_front.symm
  refine ⟨hstops, ?_, hcursor, ?_⟩
  · rw [isSourceMode, isSourceMode, h.enabled, hstops]
  · rw [sourceLine, sourceLine, hstops, hcursor]

theorem SameInputs.sameStep (h : s.SameInputs s') (hs : s.AtFront) (hs' : s'.AtFront)
    (hne : s.stops ≠ []) : s.SameStep s' := by
  have hline := h.sameLine hs hs'
  have hselected : s'.selected = s.selected := by
    obtain ⟨stop, hstop, hsel⟩ := hs.head?_stops hne
    obtain ⟨stop', hstop', hsel'⟩ := hs'.head?_stops (hline.stops ▸ hne)
    rw [hline.stops, hstop] at hstop'
    rw [← hsel, ← hsel', Option.some.inj hstop']
  have hcurrent : s'.current = s.current := by
    show s'.inner.steps[s'.selected]? = s.inner.steps[s.selected]?
    rw [h.steps, hselected]
  have hmode : s.isSourceMode = true := hs.isSourceMode_iff.2 hne
  have hmode' : s'.isSourceMode = true := hline.isSourceMode.trans hmode
  exact {
    selected := hselected
    current := hcurrent
    usedGas := by
      show gasBefore s'.inner.steps s'.selected = gasBefore s.inner.steps s.selected
      rw [h.steps, hselected]
    highlightLine := by
      have hinner : s'.inner.current = s.inner.current := hcurrent
      rw [highlightLine, highlightLine, TraceStepper.highlightLine, TraceStepper.highlightLine,
        hinner]
    canPrev := by
      rw [canPrev, canPrev, if_pos hmode, if_pos hmode', hline.cursor]
    canNext := by
      rw [canNext, canNext, if_pos hmode, if_pos hmode', hline.cursor, hline.stops]
    transition := by
      rw [hs.transition_eq_none, hs'.transition_eq_none] }

/-- **The order of setters.** -/
theorem setters_in_any_order {settings : StepperSettings} {ops ops' : List Op}
    (hsets : ∀ op ∈ ops ++ ops', op.Sets) (hops : (new settings).Admits ops)
    (hops' : (new settings).Admits ops') :
    ∃ s s', run (new settings) ops = .ok s ∧ run (new settings) ops' = .ok s' ∧
      (s.SameInputs s' → s.SameLine s' ∧
        (s.stops ≠ [] → s.cursor = 0 ∧ s.SameStep s' ∧
          ∃ stop, s.stops.head? = some stop ∧ stop.stepIndex = s.selected)) := by
  obtain ⟨hsets, hsets'⟩ := List.forall_mem_append.1 hsets
  obtain ⟨s, hrun, hs⟩ := (atFront_new settings).run hsets hops
  obtain ⟨s', hrun', hs'⟩ := (atFront_new settings).run hsets' hops'
  refine ⟨s, s', hrun, hrun', fun hinputs => ⟨hinputs.sameLine hs hs', fun hne => ?_⟩⟩
  exact ⟨hs.cursor_front, hinputs.sameStep hs hs' hne, hs.head?_stops hne⟩

/-! ## Two ways to the loop -/

def loopSetters : List Op :=
  [.setTrace (some loopTrace), .setDebugInfo (some loopMapping) (some loopSections),
    .setEnabled true]

/-- Source stepping is turned on first, for another file and without instructions. -/
def loopSettersBack : List Op :=
  [.setPrimaryFile "other.tolk", .setEnabled true, .setDebugInfo (some loopMapping) none,
    .setTrace (some loopTrace), .setDebugInfo (some loopMapping) (some loopSections),
    .setPrimaryFile defaultSourceFile]

theorem admits_loopSetters : (new {}).Admits loopSetters := by
  refine admits_cons (admissible_setTrace numbered_loopTrace _) rfl ?_
  refine admits_cons (admissible_setDebugInfo numbered_loopSections nofun rfl) rfl ?_
  exact admits_cons trivial rfl trivial

theorem admits_loopSettersBack : (new {}).Admits loopSettersBack := by
  refine admits_cons trivial rfl (admits_cons trivial rfl ?_)
  refine admits_cons ⟨nofun, nofun, nofun⟩ rfl ?_
  refine admits_cons (admissible_setTrace numbered_loopTrace _) rfl ?_
  refine admits_cons (admissible_setDebugInfo numbered_loopSections ?_ rfl) rfl ?_
  · rintro m ⟨⟩
    rfl
  · exact admits_cons trivial rfl trivial

theorem setters_in_any_order_loop : (new {}).Admits loopSetters ∧
    (new {}).Admits loopSettersBack ∧ ∃ s s', run (new {}) loopSetters = .ok s ∧
      run (new {}) loopSettersBack = .ok s' ∧ s.SameInputs s' ∧ s.SameStep s' ∧
      s.stops = [⟨3, 2⟩, ⟨7, 3⟩] ∧ s.selected = 2 := by
  have hsets : ∀ op ∈ loopSetters ++ loopSettersBack, op.Sets := by
    simp [loopSetters, loopSettersBack, Op.Sets]
  obtain ⟨s, s', hrun, hrun', hsame⟩ :=
    setters_in_any_order hsets admits_loopSetters admits_loopSettersBack
  have hloop : run (new {}) loopSetters = .ok loopStepper := rfl
  have hloop' : run (new {}) loopSettersBack = .ok loopStepper := rfl
  obtain rfl := Except.ok.inj (hrun.symm.trans hloop)
  obtain rfl := Except.ok.inj (hrun'.symm.trans hloop')
  have hinputs := sameInputs_refl loopStepper
  obtain ⟨-, hstep⟩ := hsame hinputs
  obtain ⟨-, hshown, -⟩ := hstep (List.cons_ne_nil _ _)
  exact ⟨admits_loopSetters, admits_loopSettersBack, _, _, hrun, hrun', hinputs, hshown, rfl, rfl⟩

end TvmDebug.SourceStepper
