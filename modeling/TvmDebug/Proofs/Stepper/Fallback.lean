import TvmDebug.Proofs.Stepper.Agreement
/-! # Outside source mode a source stepper is a trace stepper

Without stops an operation moves the cursor over steps as the same operation of a trace stepper
does, and an operation that only a source stepper has leaves that cursor alone (`apply_of_inner?`,
`inner_of_inner?_none`). By induction on the run the two steppers go together as long as the source
stepper is not in source mode (`mirrors_outside_source_mode`). -/
set_option autoImplicit false

namespace TvmDebug.SourceStepper

/-! ## What the two steppers share -/

namespace Op

/-- The same operation of a trace stepper; none for what only a source stepper can do. -/
def inner? : Op → Option TraceStepper.Op
  | .setTrace trace => some (.setTrace trace)
  | .move m => some (.move m)
  | .select i => some (.select i)
  | .click line => some (.click line)
  | .press key focus => some (.press key focus)
  | .setDebugInfo _ _ | .setEnabled _ | .setPrimaryFile _ | .moveFunc _ | .findFunc _ => none

/-- A move over source lines. -/
def MovesFunc : Op → Prop
  | .moveFunc _ | .findFunc _ => True
  | _ => False

end Op

def Answer.inner : Answer → TraceStepper.Answer
  | .nothing => .nothing
  | .moved yes => .moved yes

/-- Both steppers show the same. -/
structure Mirrors (s : SourceStepper) (t : TraceStepper) : Prop where
  selected : s.selected = t.selected
  current : s.current = t.current
  stack : s.stack = t.stack
  total : s.total = t.total
  canPrev : s.canPrev = t.canPrev
  canNext : s.canNext = t.canNext
  highlightLine : s.highlightLine = t.highlightLine
  usedGas : s.usedGas = t.usedGas
  transition : s.transition = t.transition

/-- Each operation is admissible where it is done, and no stepper on the way is in source mode. -/
def StaysOutside (s : SourceStepper) : List Op → Prop
  | [] => s.isSourceMode = false
  | op :: ops => s.isSourceMode = false ∧ op.Admissible s ∧
    ∀ a s', s.apply op = .ok (a, s') → s'.StaysOutside ops

variable {s s' : SourceStepper} {op : Op} {a : Answer}

theorem mirrors_inner (hmode : s.isSourceMode = false) : s.Mirrors s.inner where
  selected := rfl
  current := rfl
  stack := rfl
  total := rfl
  canPrev := by rw [canPrev, hmode]; rfl
  canNext := by rw [canNext, hmode]; rfl
  highlightLine := rfl
  usedGas := rfl
  transition := rfl

theorem StaysOutside.start {ops : List Op} (h : s.StaysOutside ops) : s.isSourceMode = false := by
  cases ops with
  | nil => exact h
  | cons op ops => exact h.1

theorem staysOutside_cons {ops : List Op} (hmode : s.isSourceMode = false)
    (hop : op.Admissible s) (h : s.apply op = .ok (a, s')) (hrest : s'.StaysOutside ops) :
    s.StaysOutside (op :: ops) := by
  refine ⟨hmode, hop, fun a' s'' h' => ?_⟩
  obtain ⟨-, rfl⟩ := Prod.mk.inj (Except.ok.inj (h.symm.trans h'))
  exact hrest

/-! ## A stepper without stops -/

theorem isSourceMode_of_stops_nil (hnil : s.stops = []) : s.isSourceMode = false := by
  simp [isSourceMode, hnil]

theorem follow_of_stops_nil (hnil : s.stops = []) : s.follow = s := by
  rw [follow, hnil]
  rfl

theorem moveTo?_of_stops_nil (hnil : s.stops = []) (k : Nat) (t : Transition) :
    s.moveTo? k t = none := by
  simp [moveTo?, hnil]

theorem moveFunc?_of_stops_nil (hnil : s.stops = []) (m : Move) : s.moveFunc? m = none := by
  cases m <;> simp [moveFunc?, moveTo?_of_stops_nil hnil]

theorem move?_of_stops_nil (hnil : s.stops = []) (m : Move) :
    s.move? m = (s.inner.move? m).map s.withInner := by
  rw [move?, isSourceMode_of_stops_nil hnil]
  rfl

theorem press?_of_stops_nil (hnil : s.stops = []) (key : Key) (focus : Focus) :
    s.press? key focus = (s.inner.press? key focus).map s.withInner := by
  rw [press?, TraceStepper.press?, Option.map_bind]
  congr 1
  funext m
  exact move?_of_stops_nil hnil m

theorem select?_of_stops_nil (hnil : s.stops = []) (i : Nat) :
    s.select? i = (s.inner.select? i).map s.withInner := by
  rw [select?]
  congr 1
  funext inner
  exact follow_of_stops_nil hnil

theorem settle_withInner (s : SourceStepper) (moved : Option TraceStepper) :
    (s.settle (moved.map s.withInner)).1.inner = (s.inner.settle moved).1 ∧
      (s.settle (moved.map s.withInner)).2.inner = (s.inner.settle moved).2 := by
  cases moved <;> exact ⟨rfl, rfl⟩

theorem inner_of_settle {moved : Option TraceStepper}
    (h : s.settle (moved.map s.withInner) = (a, s')) :
    s.inner.settle moved = (a.inner, s'.inner) := by
  obtain ⟨hanswer, hinner⟩ := settle_withInner s moved
  rw [h] at hanswer hinner
  rw [hanswer, hinner]

theorem Refreshed.inner_eq {s₁ : SourceStepper} (hr : Refreshed s s₁ s') (hnil : s'.stops = []) :
    s'.inner = s₁.inner := by
  cases hr with
  | dropped hmissing => rfl
  | kept t m i stops hholds hentry hcondense hselected => rfl
  | rebuilt t m i stops hholds hmiss hcondense =>
    rw [stops_sync] at hnil
    rw [sync_of_stops_nil hnil]

/-- A setter that leaves no stops sets its input and nothing else. -/
theorem inner_of_refresh (hs : s.Sound) {s₁ : SourceStepper} (hp : s.Prepared s₁)
    (h : s₁.refresh.map (Answer.nothing, ·) = .ok (a, s')) (hnil : s'.stops = []) :
    a = .nothing ∧ s'.inner = s₁.inner := by
  obtain ⟨s'', hok, hr⟩ := hp.refresh hs
  rw [hok] at h
  obtain ⟨rfl, rfl⟩ := Prod.mk.inj (Except.ok.inj h)
  exact ⟨rfl, hr.inner_eq hnil⟩

/-! ## One operation -/

theorem apply_of_inner? (hs : s.Sound) (hnil : s.stops = []) (hop : op.Admissible s)
    (h : s.apply op = .ok (a, s')) (hnil' : s'.stops = []) {op' : TraceStepper.Op}
    (hinner : op.inner? = some op') : s.inner.apply op' = .ok (a.inner, s'.inner) := by
  cases op with
  | setTrace trace =>
    obtain rfl := Option.some.inj hinner
    obtain ⟨rfl, heq⟩ := inner_of_refresh hs (prepared_setTrace hs hop) h hnil'
    rw [heq]
    rfl
  | move m =>
    obtain rfl := Option.some.inj hinner
    rw [apply, move?_of_stops_nil hnil] at h
    exact congrArg Except.ok (inner_of_settle (Except.ok.inj h))
  | select i =>
    obtain rfl := Option.some.inj hinner
    rw [apply, select?_of_stops_nil hnil] at h
    exact congrArg Except.ok (inner_of_settle (Except.ok.inj h))
  | press key focus =>
    obtain rfl := Option.some.inj hinner
    rw [apply, press?_of_stops_nil hnil] at h
    exact congrArg Except.ok (inner_of_settle (Except.ok.inj h))
  | click line =>
    obtain rfl := Option.some.inj hinner
    obtain ⟨yes, inner, hclick, rfl, rfl⟩ := click_of_apply h
    rw [TraceStepper.apply, hclick]
    rfl
  | setDebugInfo => cases hinner
  | setEnabled => cases hinner
  | setPrimaryFile => cases hinner
  | moveFunc => cases hinner
  | findFunc => cases hinner

theorem refused_of_movesFunc (hnil : s.stops = []) (hop : op.MovesFunc) :
    s.apply op = .ok (.moved false, s) := by
  cases op with
  | moveFunc m =>
    rw [apply, moveFunc?_of_stops_nil hnil]
    rfl
  | findFunc line =>
    rw [apply, findFunc?, hnil]
    rfl
  | _ => exact hop.elim

theorem inner_of_inner?_none (hs : s.Sound) (hnil : s.stops = []) (hop : op.Admissible s)
    (h : s.apply op = .ok (a, s')) (hnil' : s'.stops = []) (hinner : op.inner? = none) :
    s'.inner = s.inner := by
  have hfunc : op.MovesFunc → s'.inner = s.inner := by
    intro hmoves
    have hrefused := (refused_of_movesFunc hnil hmoves).symm.trans h
    rw [(Prod.mk.inj (Except.ok.inj hrefused)).2]
  cases op with
  | setDebugInfo mapping instructions =>
    obtain ⟨hnum, hm, hi⟩ := hop
    exact (inner_of_refresh hs (prepared_setDebugInfo hs hnum hm hi) h hnil').2
  | setEnabled enabled =>
    by_cases heq : s.enabled = enabled
    · rw [apply, setEnabled, if_pos heq] at h
      rw [(Prod.mk.inj (Except.ok.inj h)).2]
    · rw [apply, setEnabled, if_neg heq] at h
      exact (inner_of_refresh hs (prepared_setEnabled hs heq) h hnil').2
  | setPrimaryFile file =>
    exact (inner_of_refresh hs (prepared_setPrimaryFile hs file) h hnil').2
  | moveFunc m => exact hfunc trivial
  | findFunc line => exact hfunc trivial
  | setTrace => cases hinner
  | move => cases hinner
  | select => cases hinner
  | click => cases hinner
  | press => cases hinner

/-! ## Runs -/

theorem run_cons {ops : List Op} (h : s.apply op = .ok (a, s')) :
    run s (op :: ops) = run s' ops := by
  rw [run, List.foldlM_cons, h]
  rfl

theorem run_inner_cons (hs : s.Sound) (hnil : s.stops = []) (hop : op.Admissible s)
    (h : s.apply op = .ok (a, s')) (hnil' : s'.stops = []) (ops : List Op) :
    TraceStepper.run s.inner ((op :: ops).filterMap Op.inner?) =
      TraceStepper.run s'.inner (ops.filterMap Op.inner?) := by
  cases hinner : op.inner? with
  | none =>
    rw [List.filterMap_cons_none hinner, inner_of_inner?_none hs hnil hop h hnil' hinner]
  | some op' =>
    rw [List.filterMap_cons_some hinner, TraceStepper.run, List.foldlM_cons,
      apply_of_inner? hs hnil hop h hnil' hinner]
    rfl

/-- The cursor over steps is where the shared operations alone take it. -/
theorem run_inner (hs : s.Sound) {before after : List Op}
    (h : s.StaysOutside (before ++ after)) :
    ∃ s', run s before = .ok s' ∧
      TraceStepper.run s.inner (before.filterMap Op.inner?) = .ok s'.inner ∧ s'.Sound ∧
      s'.StaysOutside after := by
  induction before generalizing s with
  | nil => exact ⟨s, rfl, rfl, hs, h⟩
  | cons op before ih =>
    obtain ⟨hmode, hop, hrest⟩ := h
    obtain ⟨a, s₁, happly, hout⟩ := apply_ok hs hop
    have hs₁ := hout.sound hs
    have h₁ := hrest a s₁ happly
    obtain ⟨s', hrun, hinner, hs', h'⟩ := ih hs₁ h₁
    have hnil := hs.stops_eq_nil hmode
    have hnil₁ := hs₁.stops_eq_nil h₁.start
    refine ⟨s', ?_, ?_, hs', h'⟩
    · rw [run_cons happly, hrun]
    · rw [run_inner_cons hs hnil hop happly hnil₁, hinner]

/-- **Outside source mode a source stepper is a trace stepper.** -/
theorem mirrors_outside_source_mode {settings : StepperSettings} {before after : List Op}
    (h : (new settings).StaysOutside (before ++ after)) :
    ∃ s t, run (new settings) before = .ok s ∧
      TraceStepper.run (TraceStepper.new settings) (before.filterMap Op.inner?) = .ok t ∧
      s.Mirrors t ∧
      ∀ op rest, after = op :: rest → ∃ a s', s.apply op = .ok (a, s') ∧
        (∀ op', op.inner? = some op' → ∃ t', t.apply op' = .ok (a.inner, t')) ∧
        (op.MovesFunc → a = .moved false) := by
  obtain ⟨s, hrun, hinner, hs, hafter⟩ := run_inner (sound_new settings) h
  refine ⟨s, s.inner, hrun, hinner, mirrors_inner hafter.start, ?_⟩
  rintro op rest rfl
  obtain ⟨hmode, hop, hrest⟩ := hafter
  obtain ⟨a, s', happly, hout⟩ := apply_ok hs hop
  have hnil := hs.stops_eq_nil hmode
  have hnil' := (hout.sound hs).stops_eq_nil (hrest a s' happly).start
  refine ⟨a, s', happly, fun op' hop' => ?_, fun hmoves => ?_⟩
  · exact ⟨s'.inner, apply_of_inner? hs hnil hop happly hnil' hop'⟩
  · have hrefused := (refused_of_movesFunc hnil hmoves).symm.trans happly
    exact (Prod.mk.inj (Except.ok.inj hrefused)).1.symm

/-! ## Stepping over a file that the trace does not execute -/

/-- Source stepping over the loop, just turned on for a file that has no part in it. -/
def otherFileStepper : SourceStepper where
  inner := ⟨some loopTrace, 0, none, defaultResetMs, Memo.empty⟩
  enabled := true
  primaryFile := "other.tolk"
  mapping := some loopMapping
  instructions := some loopSections
  found := ⟨some (⟨0, 0, 0, "other.tolk"⟩, [])⟩
  cursor := 0

def otherFileRun : List Op :=
  [.setTrace (some loopTrace), .setDebugInfo (some loopMapping) (some loopSections),
    .setPrimaryFile "other.tolk", .setEnabled true, .move .next]

theorem staysOutside_otherFileRun :
    (new {}).StaysOutside (otherFileRun ++ [.moveFunc .first]) := by
  have htrace := admissible_setTrace numbered_loopTrace (new {})
  have hdebug : ∀ s : SourceStepper, s.mapping = none → s.instructions = none →
      (Op.setDebugInfo (some loopMapping) (some loopSections)).Admissible s := by
    intro s hmapping hinstructions
    exact admissible_setDebugInfo numbered_loopSections (by rw [hmapping]; nofun) hinstructions
  have henabled : otherFileStepper.StaysOutside [.move .next, .moveFunc .first] :=
    staysOutside_cons rfl trivial rfl (staysOutside_cons rfl trivial rfl rfl)
  have hdisabled : ({ otherFileStepper with enabled := false, found := Memo.empty } :
      SourceStepper).StaysOutside [.setEnabled true, .move .next, .moveFunc .first] :=
    staysOutside_cons rfl trivial (by rfl) henabled
  exact staysOutside_cons rfl htrace rfl (staysOutside_cons rfl (hdebug _ rfl rfl) rfl
    (staysOutside_cons rfl trivial rfl hdisabled))

/-- The two steppers go one step on, and there is no source line to go to. -/
theorem mirrors_outside_source_mode_other_file :
    (new {}).StaysOutside (otherFileRun ++ [.moveFunc .first]) ∧
      ∃ s t s', run (new {}) otherFileRun = .ok s ∧
        TraceStepper.run (TraceStepper.new {}) [.setTrace (some loopTrace), .move .next] = .ok t ∧
        s.Mirrors t ∧ s.apply (.moveFunc .first) = .ok (.moved false, s') := by
  obtain ⟨s, t, hrun, hinner, hmirrors, hnext⟩ :=
    mirrors_outside_source_mode staysOutside_otherFileRun
  obtain ⟨a, s', happly, -, hrefused⟩ := hnext _ _ rfl
  obtain rfl := hrefused trivial
  exact ⟨staysOutside_otherFileRun, s, t, s', hrun, hinner, hmirrors, happly⟩

end TvmDebug.SourceStepper
