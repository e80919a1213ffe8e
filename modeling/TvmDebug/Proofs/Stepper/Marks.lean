import TvmDebug.Proofs.Stepper.Setters
import TvmDebug.Proofs.Stepper.StepCursor
import TvmDebug.Proofs.Stepper.TraceRuns
/-! # The mark names the last move

An operation with its answer may be an event (`TraceStepper.event?`, `SourceStepper.event?`): a move
that is not refused sets a mark and another trace clears it. Each operation leaves the mark that its
event sets, or the one there was (`TraceStepper.marked_of_apply`, `SourceStepper.marked_of_apply`),
so that after a run it is the mark of the last event (`last_of_run`). -/
set_option autoImplicit false

namespace TvmDebug

/-! ## The last event of a run -/

section Events
variable {σ ω α τ : Type} {apply : σ → ω → Except Fault (α × σ)} {event? : σ → ω → α → Option τ}

/-- The events of a run, in order. -/
def events (apply : σ → ω → Except Fault (α × σ)) (event? : σ → ω → α → Option τ) :
    σ → List ω → List τ
  | _, [] => []
  | s, op :: ops =>
    match apply s op with
    | .ok (a, s') => (event? s op a).toList ++ events apply event? s' ops
    | .error _ => []

/-- What events set, and nothing else, is what the last one has set. -/
theorem last_of_run (last : σ → τ)
    (hstep : ∀ s op a s', apply s op = .ok (a, s') → last s' = (event? s op a).getD (last s))
    {ops : List ω} {s s' : σ}
    (hrun : ops.foldlM (fun s op => (apply s op).map Prod.snd) s = .ok s') :
    last s' = (events apply event? s ops).getLast?.getD (last s) := by
  induction ops generalizing s with
  | nil =>
    obtain rfl := Except.ok.inj hrun
    rfl
  | cons op ops ih =>
    rw [List.foldlM_cons] at hrun
    obtain ⟨s₁, hs₁, hrun⟩ := exists_of_bind_eq_ok hrun
    obtain ⟨⟨a, s₂⟩, happly, rfl⟩ := exists_of_map_eq_ok hs₁
    have hfirst : (event? s op a).toList.getLast? = event? s op a := by
      cases event? s op a <;> rfl
    rw [ih hrun, hstep s op a s₂ happly, events, happly, List.getLast?_append, hfirst,
      Option.getD_or]

/-- The mark is that of the last event of a run, or none without one, and operations that are no
events leave it. It is never one if it ends at once. -/
structure NamesLastMove (apply : σ → ω → Except Fault (α × σ))
    (event? : σ → ω → α → Option (Option Transition)) (transition : σ → Option Transition)
    (resetMs : UInt64) (start : σ) : Prop where
  last : ∀ ops s, ops.foldlM (fun s op => (apply s op).map Prod.snd) start = .ok s →
    transition s = if resetMs = 0 then none else (events apply event? start ops).getLast?.join
  silent : ∀ s op a s', apply s op = .ok (a, s') → event? s op a = none →
    transition s' = transition s

end Events

/-! ## Marks of the trace stepper -/

namespace TraceStepper

variable {s s' : TraceStepper} {op : Op} {a : Answer}

/-- The mark of an operation that moves. -/
def Op.mark? : Op → Option Transition
  | .move _ | .press _ _ => some .button
  | .click _ => some .click
  | .setTrace _ | .select _ | .stepsAt _ => none

/-- What an operation with its answer sets the mark to. A trace that is not the one held clears
it. -/
def event? (s : TraceStepper) : Op → Answer → Option (Option Transition)
  | .setTrace trace, .nothing =>
    if s.trace.map Shared.id = trace.map Shared.id then none else some none
  | op, .moved true => op.mark?.map some
  | _, _ => none

/-- The mark is set, and ends after as long as before. -/
structure Marked (s : TraceStepper) (mark : Option Transition) (s' : TraceStepper) : Prop where
  lastMove : s'.lastMove = mark
  resetMs : s'.resetMs = s.resetMs

theorem Reselects.marked (h : s.Reselects s') : s.Marked s.lastMove s' := by
  cases h <;> exact ⟨rfl, rfl⟩

theorem marked_of_moveTo? {i : Nat} {t : Transition} (h : s.moveTo? i t = some s') :
    s.Marked (some t) s' := by
  obtain ⟨-, hs'⟩ := Option.ite_none_right_eq_some.1 h
  obtain rfl := Option.some.inj hs'
  exact ⟨rfl, rfl⟩

theorem marked_of_move? {m : Move} (h : s.move? m = some s') : s.Marked (some .button) s' := by
  cases m <;> exact marked_of_moveTo? (Option.ite_none_right_eq_some.1 h).2

theorem marked_of_stepsAt {line : UInt32} {positions : List Nat}
    (h : s.stepsAt line = .ok (positions, s')) : s.Marked s.lastMove s' := by
  obtain htrace | ⟨t, htrace⟩ := Option.eq_none_or_eq_some s.trace
  · rw [stepsAt_of_none htrace] at h
    obtain ⟨-, rfl⟩ := Prod.mk.inj (Except.ok.inj h)
    exact ⟨rfl, rfl⟩
  · rw [stepsAt_of_some htrace] at h
    obtain ⟨⟨index, memo⟩, -, hs'⟩ := exists_of_map_eq_ok h
    obtain ⟨-, rfl⟩ := Prod.mk.inj hs'
    exact ⟨rfl, rfl⟩

theorem marked_of_click {line : UInt32} {yes : Bool} (h : s.click line = .ok (yes, s')) :
    s.Marked (if yes then some .click else s.lastMove) s' := by
  obtain ⟨⟨positions, s₁⟩, hstepsAt, hs'⟩ := exists_of_bind_eq_ok h
  have hlooked := marked_of_stepsAt hstepsAt
  dsimp only at hs'
  split at hs'
  · obtain ⟨rfl, rfl⟩ := Prod.mk.inj (Except.ok.inj hs')
    exact ⟨rfl, hlooked.resetMs⟩
  · obtain ⟨rfl, rfl⟩ := Prod.mk.inj (Except.ok.inj hs')
    exact hlooked

theorem sameInput_iff {α : Type} {held given : Option (Shared α)} :
    sameInput held given = true ↔ held.map Shared.id = given.map Shared.id := by
  cases held <;> cases given <;> simp [sameInput]

theorem marked_setTrace (s : TraceStepper) (trace : Option (Shared Trace)) :
    s.Marked ((s.event? (.setTrace trace) .nothing).getD s.lastMove) (s.setTrace trace) := by
  rw [setTrace, event?]
  by_cases hsame : s.trace.map Shared.id = trace.map Shared.id
  · rw [if_pos hsame, if_pos (sameInput_iff.2 hsame)]
    exact ⟨rfl, rfl⟩
  · rw [if_neg hsame, if_neg (mt sameInput_iff.1 hsame)]
    exact ⟨rfl, rfl⟩

theorem event?_refused (s : TraceStepper) (op : Op) : s.event? op (.moved false) = none := by
  cases op <;> rfl

theorem marked_of_settle {moved : Option TraceStepper}
    (hmoved : ∀ s₁, moved = some s₁ → s.Marked ((s.event? op (.moved true)).getD s.lastMove) s₁)
    (h : s.settle moved = (a, s')) : s.Marked ((s.event? op a).getD s.lastMove) s' := by
  cases moved with
  | none =>
    obtain ⟨rfl, rfl⟩ := Prod.mk.inj h
    show s.Marked ((s.event? op (.moved false)).getD s.lastMove) s
    rw [event?_refused]
    exact ⟨rfl, rfl⟩
  | some s₁ =>
    obtain ⟨rfl, rfl⟩ := Prod.mk.inj h
    exact hmoved s₁ rfl

theorem marked_of_apply (h : s.apply op = .ok (a, s')) :
    s.Marked ((s.event? op a).getD s.lastMove) s' := by
  cases op with
  | setTrace trace =>
    obtain ⟨rfl, rfl⟩ := Prod.mk.inj (Except.ok.inj h)
    exact marked_setTrace s trace
  | move m => exact marked_of_settle (fun _ => marked_of_move?) (Except.ok.inj h)
  | select i =>
    exact marked_of_settle (fun _ hs₁ => (reselects_of_select? hs₁).marked) (Except.ok.inj h)
  | click line =>
    obtain ⟨⟨yes, s₁⟩, hclick, hs₁⟩ := exists_of_map_eq_ok h
    obtain ⟨rfl, rfl⟩ := Prod.mk.inj hs₁
    cases yes <;> exact marked_of_click hclick
  | stepsAt line =>
    obtain ⟨⟨positions, s₁⟩, hstepsAt, hs₁⟩ := exists_of_map_eq_ok h
    obtain ⟨rfl, rfl⟩ := Prod.mk.inj hs₁
    exact marked_of_stepsAt hstepsAt
  | press key focus =>
    refine marked_of_settle (fun s₁ hpress => ?_) (Except.ok.inj h)
    obtain ⟨m, -, hmove⟩ := Option.bind_eq_some_iff.1 hpress
    exact marked_of_move? hmove

end TraceStepper

/-! ## Marks of the source stepper -/

namespace SourceStepper

variable {s s' : SourceStepper} {op : Op} {a : Answer}

/-- What an operation with its answer sets the mark to. A trace that is not the one held clears
it. -/
def event? (s : SourceStepper) : Op → Answer → Option (Option Transition)
  | .setTrace trace, .nothing =>
    if s.inner.trace.map Shared.id = trace.map Shared.id then none else some none
  | op, .moved true => op.mark?.map some
  | _, _ => none

theorem event?_moved (s : SourceStepper) (op : Op) :
    s.event? op (.moved true) = op.mark?.map some := by
  cases op <;> rfl

theorem event?_refused (s : SourceStepper) (op : Op) : s.event? op (.moved false) = none := by
  cases op <;> rfl

/-- Taking a trace may clear the mark, and that is all that setters do to it. -/
theorem marked_taken (s : SourceStepper) (op : Op) :
    s.inner.Marked ((s.event? op .nothing).getD s.inner.lastMove) (op.taken s.inner) := by
  cases op with
  | setTrace trace => exact TraceStepper.marked_setTrace s.inner trace
  | _ => exact ⟨rfl, rfl⟩

theorem Inner.marked {inner : TraceStepper} (h : Inner s op a inner) :
    s.inner.Marked ((s.event? op a).getD s.inner.lastMove) inner := by
  cases h with
  | refused =>
    rw [event?_refused]
    exact ⟨rfl, rfl⟩
  | walked _ m _ hop hmove =>
    rw [event?_moved, hop]
    exact TraceStepper.marked_of_move? hmove
  | jumped _ t inner hop hselects =>
    rw [event?_moved, hop]
    exact ⟨rfl, hselects.marked.resetMs⟩
  | picked i _ hselect => exact (TraceStepper.reselects_of_select? hselect).marked
  | clicked line yes _ hclick => cases yes <;> exact TraceStepper.marked_of_click hclick
  | set _ _ hselects =>
    have htaken := marked_taken s op
    exact ⟨hselects.marked.lastMove.trans htaken.lastMove,
      hselects.marked.resetMs.trans htaken.resetMs⟩

theorem marked_of_apply (h : s.apply op = .ok (a, s')) :
    s.inner.Marked ((s.event? op a).getD s.inner.lastMove) s'.inner :=
  (Inner.of_apply h).marked

/-- A run of admissible operations cannot fail. -/
theorem run_ok (hs : s.Sound) {ops : List Op} (hops : s.Admits ops) :
    ∃ s', run s ops = .ok s' := by
  induction ops generalizing s with
  | nil => exact ⟨s, rfl⟩
  | cons op ops ih =>
    obtain ⟨hop, hrest⟩ := hops
    obtain ⟨a, s₁, happly, hout⟩ := apply_ok hs hop
    obtain ⟨s', hrun⟩ := ih (hout.sound hs) (hrest a s₁ happly)
    exact ⟨s', by rw [run_cons happly, hrun]⟩

end SourceStepper

/-! ## Both steppers -/

/-- What is true of a mark and of how long it lasts, each for itself, is true of both. -/
theorem namesLastMove {σ ω α : Type} (apply : σ → ω → Except Fault (α × σ))
    (event? : σ → ω → α → Option (Option Transition)) (inner : σ → TraceStepper) (start : σ)
    (hmarked : ∀ s op a s', apply s op = .ok (a, s') →
      (inner s).Marked ((event? s op a).getD (inner s).lastMove) (inner s'))
    (hstart : (inner start).lastMove = none) :
    NamesLastMove apply event? (fun s => (inner s).transition) (inner start).resetMs start where
  last := by
    intro ops s hrun
    have hreset := inv_of_run (P := fun s => (inner s).resetMs = (inner start).resetMs)
      (fun op _ s a s' happly hs => (hmarked s op a s' happly).resetMs.trans hs) hrun rfl
    have hlast := last_of_run (fun s => (inner s).lastMove)
      (fun s op a s' happly => (hmarked s op a s' happly).lastMove) hrun
    rw [TraceStepper.transition, hreset, hlast, hstart]
    cases (events apply event? start ops).getLast? <;> rfl
  silent := by
    intro s op a s' happly hsilent
    obtain ⟨hlast, hreset⟩ := hmarked s op a s' happly
    rw [hsilent] at hlast
    rw [TraceStepper.transition, TraceStepper.transition, hlast, hreset]
    rfl

/-- **The mark names the last move.** -/
theorem mark_names_last_move (settings : StepperSettings) :
    NamesLastMove TraceStepper.apply TraceStepper.event? TraceStepper.transition
      settings.transitionResetMs (TraceStepper.new settings) ∧
    (∀ ops, (∀ op ∈ ops, op.Admissible) →
      ∃ s, TraceStepper.run (TraceStepper.new settings) ops = .ok s) ∧
    NamesLastMove SourceStepper.apply SourceStepper.event? SourceStepper.transition
      settings.transitionResetMs (SourceStepper.new settings) ∧
    ∀ ops, (SourceStepper.new settings).Admits ops →
      ∃ s, SourceStepper.run (SourceStepper.new settings) ops = .ok s := by
  have htrace := namesLastMove TraceStepper.apply TraceStepper.event? id
    (TraceStepper.new settings) (fun _ _ _ _ => TraceStepper.marked_of_apply) rfl
  have hsource := namesLastMove SourceStepper.apply SourceStepper.event? SourceStepper.inner
    (SourceStepper.new settings) (fun _ _ _ _ => SourceStepper.marked_of_apply) rfl
  refine ⟨htrace, fun ops hops => ?_, hsource, fun ops =>
    SourceStepper.run_ok (SourceStepper.sound_new settings)⟩
  obtain ⟨s, hrun, -⟩ := TraceStepper.run_sound (TraceStepper.sound_new settings) hops none rfl
  exact ⟨s, hrun⟩

/-- Line 7 is looked for with the cursor on it already. The source lines of another file are stepped
over after that. -/
def markedRun : List SourceStepper.Op :=
  SourceStepper.loopSetters ++
    [.move .next, .findFunc 7, .move .next, .select 0, .setPrimaryFile "other.tolk"]

theorem admits_markedRun : (SourceStepper.new {}).Admits markedRun := by
  refine SourceStepper.admits_cons
    (SourceStepper.admissible_setTrace SourceStepper.numbered_loopTrace _) rfl ?_
  refine SourceStepper.admits_cons
    (SourceStepper.admissible_setDebugInfo SourceStepper.numbered_loopSections nofun rfl) rfl ?_
  exact SourceStepper.admits_cons trivial rfl (SourceStepper.admits_cons trivial rfl
    (SourceStepper.admits_cons trivial rfl (SourceStepper.admits_cons trivial rfl
      (SourceStepper.admits_cons trivial rfl (SourceStepper.admits_cons trivial rfl trivial)))))

/-- The last move that was not refused is a click, though it left the cursor where it was. -/
theorem mark_names_last_move_clicked : (SourceStepper.new {}).Admits markedRun ∧
    events SourceStepper.apply SourceStepper.event? (SourceStepper.new {}) markedRun =
      [none, some .button, some .click] ∧
    ∃ s, SourceStepper.run (SourceStepper.new {}) markedRun = .ok s ∧
      s.transition = some .click ∧ s.primaryFile = "other.tolk" := by
  obtain ⟨-, -, hnames, hrun⟩ := mark_names_last_move {}
  obtain ⟨s, hrun⟩ := hrun markedRun admits_markedRun
  have hevents : events SourceStepper.apply SourceStepper.event? (SourceStepper.new {}) markedRun =
      [none, some .button, some .click] := rfl
  have hlast := hnames.last markedRun s hrun
  rw [hevents] at hlast
  have hfile : (SourceStepper.run (SourceStepper.new {}) markedRun).map (·.primaryFile) =
      .ok "other.tolk" := rfl
  rw [hrun] at hfile
  exact ⟨admits_markedRun, hevents, s, hrun, hlast, Except.ok.inj hfile⟩

end TvmDebug
