import TvmDebug.Proofs.Stepper.Refresh
/-! # The cursor over steps inside a source stepper

An operation on a source stepper does one of few things to the trace stepper inside it
(`SourceStepper.Inner`), whatever inputs are held: refuse, walk a step, jump to the step of a source
line, pick a step, click a line, or take a trace; and where source lines are found again, another
step may be selected without a mark. So whatever these things keep holds after every run
(`inv_of_run`), such as the soundness of the trace stepper (`SourceStepper.inner_sound_of_run`). -/
set_option autoImplicit false

namespace TvmDebug

/-- What each operation keeps, a run keeps. -/
theorem inv_of_run {σ ω α : Type} {apply : σ → ω → Except Fault (α × σ)} {P : σ → Prop}
    {ops : List ω} (hstep : ∀ op ∈ ops, ∀ s a s', apply s op = .ok (a, s') → P s → P s') {s s' : σ}
    (hrun : ops.foldlM (fun s op => (apply s op).map Prod.snd) s = .ok s') (hs : P s) : P s' := by
  induction ops generalizing s with
  | nil =>
    obtain rfl := Except.ok.inj hrun
    exact hs
  | cons op ops ih =>
    obtain ⟨hop, hops⟩ := List.forall_mem_cons.1 hstep
    rw [List.foldlM_cons] at hrun
    obtain ⟨s₁, hs₁, hrun⟩ := exists_of_bind_eq_ok hrun
    obtain ⟨⟨a, s₂⟩, happly, rfl⟩ := exists_of_map_eq_ok hs₁
    exact ih hops hrun (hop s a s₂ happly hs)

namespace TraceStepper

/-- Another step may be selected; all else is the same. -/
inductive Reselects (s : TraceStepper) : TraceStepper → Prop
  | stays : Reselects s s
  | selects (i : Nat) (h : i < s.total) : Reselects s { s with selected := i }

variable {s s' : TraceStepper}

theorem Reselects.sound (h : s.Reselects s') (hs : s.Sound) : s'.Sound := by
  cases h with
  | stays => exact hs
  | selects i hi => exact (moves_selected hs hi s.lastMove).sound

theorem reselects_of_select? {i : Nat} (h : s.select? i = some s') : s.Reselects s' := by
  obtain ⟨hi, hs'⟩ := Option.ite_none_right_eq_some.1 h
  obtain rfl := Option.some.inj hs'
  exact .selects i hi

end TraceStepper

namespace SourceStepper

open TraceStepper (Reselects)

/-- The mark of an operation that moves. -/
def Op.mark? : Op → Option Transition
  | .move _ | .moveFunc _ | .press _ _ => some .button
  | .findFunc _ | .click _ => some .click
  | .setTrace _ | .setDebugInfo _ _ | .setEnabled _ | .setPrimaryFile _ | .select _ => none

/-- The cursor over steps once the trace is taken that the operation gives. -/
def Op.taken (inner : TraceStepper) : Op → TraceStepper
  | .setTrace trace => inner.setTrace trace
  | _ => inner

/-- What an operation makes of the cursor over steps. -/
inductive Inner (s : SourceStepper) : Op → Answer → TraceStepper → Prop
  | refused (op : Op) : Inner s op (.moved false) s.inner
  | walked (op : Op) (m : Move) (inner : TraceStepper) (hop : op.mark? = some .button)
      (h : s.inner.move? m = some inner) : Inner s op (.moved true) inner
  | jumped (op : Op) (t : Transition) (inner : TraceStepper) (hop : op.mark? = some t)
      (h : s.inner.Reselects inner) : Inner s op (.moved true) (inner.mark t)
  | picked (i : Nat) (inner : TraceStepper) (h : s.inner.select? i = some inner) :
      Inner s (.select i) (.moved true) inner
  | clicked (line : UInt32) (yes : Bool) (inner : TraceStepper)
      (h : s.inner.click line = .ok (yes, inner)) : Inner s (.click line) (.moved yes) inner
  | set (op : Op) (inner : TraceStepper) (h : (op.taken s.inner).Reselects inner) :
      Inner s op .nothing inner

variable {s s' : SourceStepper} {op : Op} {a : Answer}

/-! ## Source lines found again -/

theorem reselects_sync (s : SourceStepper) : s.inner.Reselects s.sync.inner := by
  unfold sync
  split
  · next stop hstop =>
    show s.inner.Reselects ((s.inner.select? stop.stepIndex).getD s.inner)
    cases hselect : s.inner.select? stop.stepIndex with
    | none => exact .stays
    | some inner => exact TraceStepper.reselects_of_select? hselect
  · exact .stays

theorem reselects_of_refresh (h : s.refresh = .ok s') : s.inner.Reselects s'.inner := by
  obtain hinputs | ⟨⟨t, m, i⟩, hinputs⟩ := Option.eq_none_or_eq_some s.inputs?
  · rw [refresh_of_missing hinputs] at h
    obtain rfl := Except.ok.inj h
    split <;> exact .stays
  · rw [refresh_of_holds (inputs?_eq_some_iff.1 hinputs)] at h
    split at h
    · obtain rfl := Except.ok.inj h
      exact .stays
    · obtain ⟨⟨stops, found⟩, -, rfl⟩ := exists_of_map_eq_ok h
      exact reselects_sync { s with found := found, cursor := 0 }

/-! ## Operations -/

theorem Inner.of_refresh {s₁ : SourceStepper}
    (h : s₁.refresh.map (Answer.nothing, ·) = .ok (a, s')) (hs₁ : s₁.inner = op.taken s.inner) :
    Inner s op a s'.inner := by
  obtain ⟨s₂, hrefresh, hs₂⟩ := exists_of_map_eq_ok h
  obtain ⟨rfl, rfl⟩ := Prod.mk.inj hs₂
  exact .set op _ (hs₁ ▸ reselects_of_refresh hrefresh)

theorem Inner.of_settle {moved : Option SourceStepper}
    (hmoved : ∀ s₁, moved = some s₁ → Inner s op (.moved true) s₁.inner)
    (h : s.settle moved = (a, s')) : Inner s op a s'.inner := by
  cases moved with
  | none =>
    obtain ⟨rfl, rfl⟩ := Prod.mk.inj h
    exact .refused op
  | some s₁ =>
    obtain ⟨rfl, rfl⟩ := Prod.mk.inj h
    exact hmoved s₁ rfl

theorem Inner.of_moveTo? {k : Nat} {t : Transition} (hop : op.mark? = some t)
    (h : s.moveTo? k t = some s') : Inner s op (.moved true) s'.inner := by
  obtain ⟨-, hs'⟩ := Option.ite_none_right_eq_some.1 h
  obtain rfl := Option.some.inj hs'
  exact .jumped op t _ hop (reselects_sync { s with cursor := k })

theorem Inner.of_moveFunc? {m : Move} (hop : op.mark? = some .button)
    (h : s.moveFunc? m = some s') : Inner s op (.moved true) s'.inner := by
  cases m with
  | prev => exact Inner.of_moveTo? hop (Option.ite_none_right_eq_some.1 h).2
  | next => exact Inner.of_moveTo? hop h
  | first => exact Inner.of_moveTo? hop h
  | last => exact Inner.of_moveTo? hop (Option.ite_none_right_eq_some.1 h).2

theorem Inner.of_move? {m : Move} (hop : op.mark? = some .button) (h : s.move? m = some s') :
    Inner s op (.moved true) s'.inner := by
  unfold move? at h
  split at h
  · exact Inner.of_moveFunc? hop h
  · obtain ⟨inner, hinner, rfl⟩ := Option.map_eq_some_iff.1 h
    exact .walked op m inner hop hinner

/-- No operation does anything else to the cursor over steps. -/
theorem Inner.of_apply (h : s.apply op = .ok (a, s')) : Inner s op a s'.inner := by
  cases op with
  | setTrace trace => exact Inner.of_refresh h rfl
  | setDebugInfo mapping instructions => exact Inner.of_refresh h rfl
  | setPrimaryFile file => exact Inner.of_refresh h rfl
  | setEnabled enabled =>
    rw [apply, setEnabled] at h
    split at h
    · obtain ⟨rfl, rfl⟩ := Prod.mk.inj (Except.ok.inj h)
      exact .set _ _ .stays
    · exact Inner.of_refresh h rfl
  | move m => exact Inner.of_settle (fun _ => Inner.of_move? rfl) (Except.ok.inj h)
  | moveFunc m => exact Inner.of_settle (fun _ => Inner.of_moveFunc? rfl) (Except.ok.inj h)
  | press key focus =>
    refine Inner.of_settle (fun s₁ hpress => ?_) (Except.ok.inj h)
    obtain ⟨m, -, hmove⟩ := Option.bind_eq_some_iff.1 hpress
    exact Inner.of_move? rfl hmove
  | findFunc line =>
    refine Inner.of_settle (fun s₁ hfind => ?_) (Except.ok.inj h)
    obtain ⟨k, -, rfl⟩ := Option.map_eq_some_iff.1 hfind
    exact .jumped _ .click _ rfl (reselects_sync { s with cursor := k })
  | select i =>
    refine Inner.of_settle (fun s₁ hselect => ?_) (Except.ok.inj h)
    obtain ⟨inner, hinner, rfl⟩ := Option.map_eq_some_iff.1 hselect
    rw [inner_follow]
    exact .picked i inner hinner
  | click line =>
    obtain ⟨yes, inner, hinner, rfl, hs'⟩ := click_of_apply h
    rw [hs']
    exact .clicked line yes inner hinner

/-! ## Traces with numbered lines -/

/-- A trace that is given has numbered lines; other inputs may be any. -/
def Op.GivesNumbered : Op → Prop
  | .setTrace trace => ∀ t, trace = some t → t.value.Numbered
  | _ => True

theorem Inner.sound {inner : TraceStepper} (h : Inner s op a inner) (hs : s.inner.Sound)
    (hop : op.GivesNumbered) : inner.Sound := by
  cases h with
  | refused => exact hs
  | walked _ m _ hmark hmove => exact (TraceStepper.moves_of_move? hs hmove).sound
  | jumped _ t inner hmark hselects =>
    have hinner := hselects.sound hs
    exact ⟨hinner.numbered, hinner.selected_lt, hinner.selected_zero, hinner.index_current⟩
  | picked i _ hselect => exact (TraceStepper.moves_of_select? hs hselect).sound
  | clicked line yes _ hclick => exact (TraceStepper.clicked_of_click hs hclick).sound
  | set _ _ hselects =>
    refine hselects.sound ?_
    cases op with
    | setTrace trace => exact TraceStepper.sound_setTrace hs hop
    | _ => exact hs

theorem inner_sound_of_run {ops : List Op} (hops : ∀ op ∈ ops, op.GivesNumbered)
    (hrun : run s ops = .ok s') (hs : s.inner.Sound) : s'.inner.Sound :=
  inv_of_run (P := fun s => s.inner.Sound)
    (fun op hop _ _ _ happly hsound => (Inner.of_apply happly).sound hsound (hops op hop)) hrun hs

end SourceStepper

end TvmDebug
