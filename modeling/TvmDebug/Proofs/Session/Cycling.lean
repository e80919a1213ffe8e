import Mathlib.Data.List.GetD
import Mathlib.Data.List.Rotate
import Mathlib.Data.List.Sort
import Mathlib.Logic.Function.Iterate
import TvmDebug.Proofs.Session.Gas
import TvmDebug.Proofs.Stepper.Lookups
import TvmDebug.Proofs.Stepper.StepCursor
import TvmDebug.Proofs.Stepper.TraceRuns
/-! # Clicks go round the executions of a line

A click goes from one step that executed its line to the next (`TraceStepper.after?_eq`), so that
any sequence of clicks is counted off on the list of these steps, modulo its length
(`TraceStepper.clicksTo_of_chain`). Both steppers click on as long as there is such a step
(`TraceStepper.cycles`, `SourceStepper.cycles`), and a click on any other line changes nothing that
they show. What a session shows after some clicks is the step they lead to (`clicks_cycle`). -/
set_option autoImplicit false

namespace TvmDebug

/-! ## Counting off -/

/-- The positions of the steps that executed a line, in order. -/
def executions (steps : List Step) (line : UInt32) : List Nat :=
  (List.range steps.length).filter fun i =>
    (steps[i]?.bind fun step => step.line.map (· + 1)) = some line

/-- Clicks on a line that was executed at the positions `ps` lead from step `i` to step `j`. -/
structure ClicksTo (ps : List Nat) (i clicks j : Nat) : Prop where
  stay : ps = [] ∨ clicks = 0 → j = i
  onward : ∀ p, ps[p]? = some i → ps[(p + clicks) % ps.length]? = some j
  enter : i ∉ ps → ps ≠ [] → 0 < clicks → ps[(clicks - 1) % ps.length]? = some j

/-- A click, done again and again, is refused and changes nothing that is shown if the line was
executed nowhere, and is never refused otherwise. Then it leads on from execution to execution, and
as many clicks as there are executions lead once to each. -/
structure Cycles {σ α : Type} (click : σ → Except Fault (α × σ)) (answer : Bool → α)
    (forget : σ → σ) (selected : σ → Nat) (ps : List Nat) (s : σ) : Prop where
  refused : ps = [] → ∃ s', click s = .ok (answer false, s') ∧ forget s' = forget s
  visits : ps ≠ [] → ∃ visit : Nat → σ, visit 0 = s ∧
    (∀ k, click (visit k) = .ok (answer true, visit (k + 1))) ∧
    (∀ k, ClicksTo ps (selected s) k (selected (visit k))) ∧
    ((List.range ps.length).map fun k => selected (visit (k + 1))).Perm ps

theorem mem_executions {steps : List Step} {line : UInt32} {i : Nat} :
    i ∈ executions steps line ↔
      ∃ step, steps[i]? = some step ∧ step.line.map (· + 1) = some line := by
  rw [executions, List.mem_filter, List.mem_range, decide_eq_true_eq, Option.bind_eq_some_iff]
  refine and_iff_right_of_imp ?_
  rintro ⟨step, hstep, -⟩
  exact (List.getElem?_eq_some_iff.1 hstep).1

theorem pairwise_executions (steps : List Step) (line : UInt32) :
    (executions steps line).Pairwise (· < ·) :=
  List.pairwise_lt_range.filter _

namespace TraceStepper

section Chain
variable {ps : List Nat} {f : Nat → Nat} {i : Nat}

theorem clickStart_of_getElem? (hnodup : ps.Nodup) {p : Nat} (h : ps[p]? = some i) :
    clickStart ps i = p + 1 := by
  obtain ⟨hlt, rfl⟩ := List.getElem?_eq_some_iff.1 h
  have hstart := clickStart_getD hnodup (List.ne_nil_of_length_pos (Nat.zero_lt_of_lt hlt)) p
  rwa [Nat.mod_eq_of_lt hlt, List.getD_eq_getElem _ _ hlt] at hstart

theorem clickStart_of_notMem (h : i ∉ ps) : clickStart ps i = 0 := by
  rw [clickStart, List.idxOf?_eq_none_iff.2 h]

/-- Clicks that follow each other count on from where the first one starts. -/
theorem getElem?_of_chain (hnodup : ps.Nodup) (hne : ps ≠ [])
    (h : ∀ k, after? ps (f k) = some (f (k + 1))) (k : Nat) :
    ps[(clickStart ps (f 0) + k) % ps.length]? = some (f (k + 1)) := by
  have hget : ∀ m, ps[m % ps.length]? = some (ps.getD (m % ps.length) 0) := by
    intro m
    have hlt := Nat.mod_lt m (List.length_pos_iff.2 hne)
    rw [List.getElem?_eq_getElem hlt, List.getD_eq_getElem _ _ hlt]
  induction k with
  | zero => rw [← h 0, after?_eq hne, Nat.add_zero, hget]
  | succ k ih =>
    rw [← h (k + 1), after?_eq hne, clickStart_of_getElem? hnodup ih, Nat.mod_add_mod,
      Nat.add_assoc, hget]

theorem clicksTo_of_chain (hnodup : ps.Nodup) (hne : ps ≠ [])
    (h : ∀ k, after? ps (f k) = some (f (k + 1))) (k : Nat) : ClicksTo ps (f 0) k (f k) where
  stay := by
    rintro (hnil | rfl)
    · exact absurd hnil hne
    · rfl
  onward := by
    intro p hp
    obtain ⟨hlt, -⟩ := List.getElem?_eq_some_iff.1 hp
    cases k with
    | zero => rwa [Nat.add_zero, Nat.mod_eq_of_lt hlt]
    | succ k =>
      have hlead := getElem?_of_chain hnodup hne h k
      rwa [clickStart_of_getElem? hnodup hp, Nat.add_assoc, Nat.add_comm 1 k] at hlead
  enter := by
    intro hout _ hpos
    obtain ⟨k, rfl⟩ := Nat.exists_eq_add_one.2 hpos
    have hlead := getElem?_of_chain hnodup hne h k
    rwa [clickStart_of_notMem hout, Nat.zero_add] at hlead

/-- One round goes through the list from where it starts. -/
theorem perm_of_chain (hnodup : ps.Nodup) (hne : ps ≠ [])
    (h : ∀ k, after? ps (f k) = some (f (k + 1))) :
    ((List.range ps.length).map fun k => f (k + 1)).Perm ps := by
  have hround : ((List.range ps.length).map fun k => f (k + 1)) =
      ps.rotate (clickStart ps (f 0)) := by
    refine List.ext_getElem? fun k => ?_
    by_cases hk : k < ps.length
    · rw [List.getElem?_rotate hk, Nat.add_comm k, getElem?_of_chain hnodup hne h k]
      simp [hk]
    · simp [Nat.le_of_not_lt hk]
  rw [hround]
  exact List.rotate_perm ps _

end Chain

end TraceStepper

/-- What one click does, as long as something holds of the stepper, tells what all of them do. -/
theorem cycles_of_step {σ α : Type} {click : σ → Except Fault (α × σ)} {answer : Bool → α}
    {forget : σ → σ} {selected : σ → Nat} {ps : List Nat} {s : σ} (inv : σ → Prop)
    (hnodup : ps.Nodup)
    (hrefused : ps = [] → ∃ s', click s = .ok (answer false, s') ∧ forget s' = forget s)
    (hstep : ps ≠ [] → ∀ s, inv s → ∃ s', click s = .ok (answer true, s') ∧ inv s' ∧
      TraceStepper.after? ps (selected s) = some (selected s')) (hs : inv s) :
    Cycles click answer forget selected ps s where
  refused := hrefused
  visits := by
    intro hne
    choose next hclick hinv hafter using hstep hne
    let visit (k : Nat) : { s // inv s } := (fun s => ⟨next s.1 s.2, hinv s.1 s.2⟩)^[k] ⟨s, hs⟩
    have hsucc : ∀ k, (visit (k + 1)).1 = next (visit k).1 (visit k).2 := by
      intro k
      exact congrArg Subtype.val (Function.iterate_succ_apply' _ k _)
    have hchain : ∀ k, TraceStepper.after? ps (selected (visit k).1) =
        some (selected (visit (k + 1)).1) := by
      intro k
      rw [hsucc]
      exact hafter _ _
    have hvisit : ∀ k, click (visit k).1 = .ok (answer true, (visit (k + 1)).1) := by
      intro k
      rw [hsucc]
      exact hclick _ _
    exact ⟨fun k => (visit k).1, rfl, hvisit, TraceStepper.clicksTo_of_chain hnodup hne hchain,
      TraceStepper.perm_of_chain hnodup hne hchain⟩

/-! ## Clicks of the two steppers -/

theorem nodup_executions (steps : List Step) (line : UInt32) : (executions steps line).Nodup :=
  (pairwise_executions steps line).imp Nat.ne_of_lt

namespace TraceStepper

variable {s : TraceStepper} {line : UInt32}

/-- The steps listed for a line are its executions. -/
theorem stepsAt_eq (h : s.Sound) (line : UInt32) :
    ∃ memo, ({ s with index := memo } : TraceStepper).Sound ∧
      s.stepsAt line = .ok (executions s.steps line, { s with index := memo }) := by
  obtain ⟨positions, memo, hok, hsound, hascending, hmem⟩ := stepsAt_ok h line
  obtain rfl : positions = executions s.steps line :=
    hascending.eq_of_mem_iff (pairwise_executions _ _) fun i => by rw [hmem, mem_executions]
  exact ⟨memo, hsound, hok⟩

theorem click_refused (h : s.Sound) (hnil : executions s.steps line = []) :
    ∃ memo, ({ s with index := memo } : TraceStepper).Sound ∧
      s.click line = .ok (false, { s with index := memo }) := by
  obtain ⟨memo, hsound, hok⟩ := stepsAt_eq h line
  rw [hnil] at hok
  exact ⟨memo, hsound, click_of_after?_none hok rfl⟩

/-- A click goes to the execution after the selected step. -/
theorem click_step (h : s.Sound) (hne : executions s.steps line ≠ []) :
    ∃ s', s.click line = .ok (true, s') ∧ s.Moves s' ∧
      after? (executions s.steps line) s.selected = some s'.selected := by
  obtain ⟨memo, hsound, hok⟩ := stepsAt_eq h line
  have hafter := after?_eq hne s.selected
  generalize (executions s.steps line).getD _ 0 = i at hafter
  have hlt : i < s.total := by
    obtain ⟨step, hstep, -⟩ := mem_executions.1 (mem_of_after? hafter)
    exact (List.getElem?_eq_some_iff.1 hstep).1
  obtain ⟨htrace, hsel, hs⟩ := moves_selected hsound hlt (some .click)
  exact ⟨_, click_of_after?_some hok hafter, ⟨htrace, hsel, hs⟩, hafter⟩

theorem cycles (h : s.Sound) (line : UInt32) :
    Cycles (fun s => s.apply (.click line)) Answer.moved forget selected
      (executions s.steps line) s := by
  refine cycles_of_step (fun s' => s'.Sound ∧ s'.steps = s.steps) (nodup_executions _ _)
    (fun hnil => ?_) (fun hne s' hs' => ?_) ⟨h, rfl⟩
  · obtain ⟨memo, -, hclick⟩ := click_refused h hnil
    refine ⟨s.withIndex memo, ?_, rfl⟩
    rw [apply, hclick]
    rfl
  · obtain ⟨hs', hsteps⟩ := hs'
    have hne' : executions s'.steps line ≠ [] := hsteps ▸ hne
    obtain ⟨s'', hclick, hmoves, hafter⟩ := click_step hs' hne'
    refine ⟨s'', ?_, ⟨hmoves.sound, hmoves.steps.trans hsteps⟩, hsteps ▸ hafter⟩
    rw [apply, hclick]
    rfl

end TraceStepper

namespace SourceStepper

variable {s : SourceStepper} {line : UInt32}

theorem click_refused (h : s.inner.Sound) (hnil : executions s.inner.steps line = []) :
    ∃ memo, s.click line = .ok (false, s.withIndex memo) := by
  obtain ⟨memo, -, hclick⟩ := TraceStepper.click_refused h hnil
  refine ⟨memo, ?_⟩
  rw [click, hclick]
  rfl

theorem cycles (h : s.inner.Sound) (line : UInt32) :
    Cycles (fun s => s.apply (.click line)) Answer.moved forget selected
      (executions s.inner.steps line) s := by
  refine cycles_of_step (fun s' => s'.inner.Sound ∧ s'.inner.steps = s.inner.steps)
    (nodup_executions _ _) (fun hnil => ?_) (fun hne s' hs' => ?_) ⟨h, rfl⟩
  · obtain ⟨memo, hclick⟩ := click_refused h hnil
    refine ⟨s.withIndex memo, ?_, rfl⟩
    rw [apply, hclick]
    rfl
  · obtain ⟨hs', hsteps⟩ := hs'
    have hne' : executions s'.inner.steps line ≠ [] := hsteps ▸ hne
    obtain ⟨inner, hclick, hmoves, hafter⟩ := TraceStepper.click_step hs' hne'
    have hinner : (s'.withInner inner).follow.inner = inner := inner_follow _
    refine ⟨(s'.withInner inner).follow, ?_, ?_, ?_⟩
    · rw [apply, click, hclick]
      rfl
    · rw [hinner]
      exact ⟨hmoves.sound, hmoves.steps.trans hsteps⟩
    · rw [selected, selected, hinner, ← hsteps]
      exact hafter

theorem steps_of_click (h : s.inner.Sound) {a : Answer} {s' : SourceStepper}
    (happly : s.apply (.click line) = .ok (a, s')) : s'.inner.steps = s.inner.steps := by
  obtain ⟨yes, inner, hclick, rfl, rfl⟩ := click_of_apply happly
  exact (TraceStepper.clicked_of_click h hclick).steps

theorem run_of_visits {visit : Nat → SourceStepper}
    (h : ∀ k, (visit k).apply (.click line) = .ok (.moved true, visit (k + 1))) (clicks : Nat) :
    run (visit 0) (List.replicate clicks (.click line)) = .ok (visit clicks) := by
  induction clicks with
  | zero => rfl
  | succ clicks ih =>
    rw [List.replicate_succ', run_append ih, run_cons (h clicks)]
    rfl

theorem run_clicks_refused (h : s.inner.Sound) (hnil : executions s.inner.steps line = [])
    (clicks : Nat) :
    ∃ s', run s (List.replicate clicks (.click line)) = .ok s' ∧ s'.selected = s.selected := by
  cases clicks with
  | zero => exact ⟨s, rfl, rfl⟩
  | succ clicks =>
    obtain ⟨memo, hclick⟩ := click_refused h hnil
    have happly : s.apply (.click line) = .ok (.moved false, s.withIndex memo) := by
      rw [apply, hclick]
      rfl
    refine ⟨s.withIndex memo, ?_, rfl⟩
    rw [List.replicate_succ, run_cons happly, run_of_refused (click_again hclick)]

/-- So many clicks in a row are a run, which leads to where they lead. -/
theorem run_clicks (h : s.inner.Sound) (line : UInt32) (clicks : Nat) :
    ∃ s', run s (List.replicate clicks (.click line)) = .ok s' ∧ s'.inner.Sound ∧
      s'.inner.steps = s.inner.steps ∧
      ClicksTo (executions s.inner.steps line) s.selected clicks s'.selected := by
  have hkept : ∀ s', run s (List.replicate clicks (.click line)) = .ok s' →
      s'.inner.Sound ∧ s'.inner.steps = s.inner.steps := by
    intro s' hrun
    refine inv_of_run (P := fun s' => s'.inner.Sound ∧ s'.inner.steps = s.inner.steps)
      (fun op hop s₁ a s₂ happly ⟨hs₁, hsteps⟩ => ?_) hrun ⟨h, rfl⟩
    obtain rfl := List.eq_of_mem_replicate hop
    exact ⟨(Inner.of_apply happly).sound hs₁ trivial, (steps_of_click hs₁ happly).trans hsteps⟩
  by_cases hnil : executions s.inner.steps line = []
  · obtain ⟨s', hrun, hselected⟩ := run_clicks_refused h hnil clicks
    obtain ⟨hs, hsteps⟩ := hkept s' hrun
    refine ⟨s', hrun, hs, hsteps, fun _ => hselected, fun p hp => ?_, fun _ hne => absurd hnil hne⟩
    rw [hnil] at hp
    cases hp
  · obtain ⟨visit, rfl, hclick, hleads, -⟩ := (cycles h line).visits hnil
    have hrun := run_of_visits hclick clicks
    obtain ⟨hs, hsteps⟩ := hkept _ hrun
    exact ⟨visit clicks, hrun, hs, hsteps, hleads clicks⟩

end SourceStepper

/-! ## Sessions -/

section Session
variable {session : Session} {choice : SourceChoice} {settings : Settings} {s₀ : SourceStepper}

/-- Opening can fail only where source lines have to be found. -/
theorem exists_openStepper (h : choice.source = true → session.Numbered) :
    ∃ s₀, openStepper session choice settings = .ok s₀ := by
  cases hsource : choice.source with
  | true =>
    obtain ⟨s₀, hopen, -⟩ := openStepper_ok (h hsource) choice settings
    exact ⟨s₀, hopen⟩
  | false =>
    refine ⟨session.loaded choice settings, ?_⟩
    rw [openStepper_eq, hsource]
    rfl

/-- An opened stepper holds the steps of the session, with the cursor on one of them. -/
theorem inner_of_openStepper (h : session.trace.Numbered)
    (hopen : openStepper session choice settings = .ok s₀) :
    s₀.inner.Sound ∧ s₀.inner.steps = session.trace.steps := by
  have hnumbered : ∀ t, some (Session.shared session.trace) = some t → t.value.Numbered := by
    rintro t ⟨⟩
    exact h
  have hloaded : (session.loaded choice settings).inner.Sound :=
    TraceStepper.sound_setTrace (TraceStepper.sound_new settings.stepper) hnumbered
  rw [openStepper_eq, SourceStepper.setEnabled] at hopen
  split at hopen
  · obtain rfl := Except.ok.inj hopen
    exact ⟨hloaded, rfl⟩
  · exact ⟨(SourceStepper.reselects_of_refresh hopen).sound hloaded,
      (SourceStepper.sameInputs_of_refresh hopen).steps⟩

/-- Step `i` is shown, or that there are none. -/
def Report.ShowsStepOrNone (r : Report) (steps : List Step) (i : Nat) : Prop :=
  if steps = [] then r = Report.ofLines ["Trace is empty"] else r.ShowsStep steps i []

theorem showStep_showsStepOrNone {s : SourceStepper} {trace : Trace} (hs : s.inner.Sound)
    (hsteps : s.inner.steps = trace.steps) (h : trace.Numbered) (exit : Option ExitCode) :
    (showStep s exit).ShowsStepOrNone trace.steps s.selected := by
  unfold Report.ShowsStepOrNone
  split
  · next hempty =>
    have hcurrent : s.current = none := by
      show s.inner.steps[s.selected]? = none
      rw [hsteps, hempty]
      rfl
    rw [showStep, hcurrent]
  · next hne =>
    have htotal : s.inner.total ≠ 0 := by
      rw [TraceStepper.total, hsteps]
      exact mt List.length_eq_zero_iff.1 hne
    have hlt : s.selected < trace.steps.length := hsteps ▸ hs.selected_lt htotal
    exact (showStep_showsStep hsteps h hlt exit).alone

/-- The step that the clicks lead to is shown. -/
theorem inspect_clicks (h : session.trace.Numbered)
    (hopen : openStepper session choice settings = .ok s₀) (line : UInt32) (clicks : Nat) :
    ∃ j, ClicksTo (executions session.trace.steps line) s₀.selected clicks j ∧
      (session.inspect choice (.line line clicks) settings).ShowsStepOrNone session.trace.steps
        j := by
  obtain ⟨hs₀, hsteps⟩ := inner_of_openStepper h hopen
  obtain ⟨exit, hinspect⟩ := inspect_eq hopen
  obtain ⟨s, hrun, hs, hkept, hleads⟩ := SourceStepper.run_clicks hs₀ line clicks
  have hmove : moveCursor s₀ (.line line clicks) = .ok (.ok s) := by
    rw [moveCursor, SourceStepper.clickMany_eq_run hs₀, hrun]
    rfl
  refine ⟨s.selected, hsteps ▸ hleads, ?_⟩
  rw [hinspect _ _ hmove]
  exact showStep_showsStepOrNone hs (hkept.trans hsteps) h exit

/-- **Clicks go round the executions of a line.** -/
theorem clicks_cycle (line : UInt32) :
    (∀ settings s, TraceStepper.Reachable settings s →
      Cycles (fun s => s.apply (.click line)) .moved TraceStepper.forget TraceStepper.selected
        (executions s.steps line) s) ∧
    (∀ settings ops s, (∀ op ∈ ops, op.GivesNumbered) →
      SourceStepper.run (SourceStepper.new settings) ops = .ok s →
      Cycles (fun s => s.apply (.click line)) .moved SourceStepper.forget SourceStepper.selected
        (executions s.inner.steps line) s) ∧
    ∀ session : Session, session.trace.Numbered → ∀ choice settings,
      ((choice.source = true → session.Numbered) →
        ∃ s₀, openStepper session choice settings = .ok s₀) ∧
      ∀ s₀, openStepper session choice settings = .ok s₀ → ∀ clicks, ∃ j,
        ClicksTo (executions session.trace.steps line) s₀.selected clicks j ∧
        (session.inspect choice (.line line clicks) settings).ShowsStepOrNone
          session.trace.steps j := by
  refine ⟨fun settings s hs => TraceStepper.cycles (TraceStepper.sound_of_reachable hs) line,
    fun settings ops s hops hrun => ?_, fun session h choice settings =>
      ⟨exists_openStepper, fun s₀ hopen clicks => inspect_clicks h hopen line clicks⟩⟩
  have hnew : (SourceStepper.new settings).inner.Sound := TraceStepper.sound_new settings
  exact SourceStepper.cycles (SourceStepper.inner_sound_of_run hops hrun hnew) line

end Session

/-- Line 20 is executed at steps 1 and 3; the stepper of the loop starts at step 2. -/
theorem clicks_cycle_loop : (∃ s, TraceStepper.Reachable {} s ∧
      Cycles (fun s => s.apply (.click 10)) .moved TraceStepper.forget TraceStepper.selected
        [0, 2] s) ∧
    (∀ op ∈ SourceStepper.loopSetters, op.GivesNumbered) ∧
    SourceStepper.run (SourceStepper.new {}) SourceStepper.loopSetters =
      .ok SourceStepper.loopStepper ∧
    Cycles (fun s => s.apply (.click 20)) .moved SourceStepper.forget SourceStepper.selected
      [1, 3] SourceStepper.loopStepper ∧
    loopSession.Numbered ∧ openStepper loopSession ⟨true, none⟩ {} = .ok SourceStepper.loopStepper ∧
    (loopSession.inspect ⟨true, none⟩ (.line 20 5) {}).ShowsStep loopSession.trace.steps 1 [] := by
  obtain ⟨htrace, -, -⟩ := clicks_cycle 10
  obtain ⟨-, hsource, hsession⟩ := clicks_cycle 20
  have hlong : TraceStepper.Reachable {} ⟨some TraceStepper.longTrace, 0, none, defaultResetMs,
      Memo.empty⟩ := by
    refine ⟨[.setTrace (some TraceStepper.longTrace)], ?_, rfl⟩
    simpa [TraceStepper.Op.Admissible] using TraceStepper.numbered_longTrace
  have hsetters : ∀ op ∈ SourceStepper.loopSetters, op.GivesNumbered := by
    simpa [SourceStepper.loopSetters, SourceStepper.Op.GivesNumbered] using
      SourceStepper.numbered_loopTrace
  have hrun : SourceStepper.run (SourceStepper.new {}) SourceStepper.loopSetters =
      .ok SourceStepper.loopStepper := rfl
  obtain ⟨hopens, hinspect⟩ := hsession loopSession numbered_loopSession.trace ⟨true, none⟩ {}
  obtain ⟨s₀, hopen⟩ := hopens fun _ => numbered_loopSession
  obtain rfl : SourceStepper.loopStepper = s₀ := Except.ok.inj (Eq.trans rfl hopen)
  obtain ⟨j, hleads, hshown⟩ := hinspect _ hopen 5
  have hfirst : [1, 3][(5 - 1) % 2]? = some j :=
    hleads.enter (by decide) (List.cons_ne_nil _ _) (by decide)
  obtain rfl : 1 = j := Option.some.inj hfirst
  exact ⟨⟨_, hlong, htrace {} _ hlong⟩, hsetters, hrun, hsource {} _ _ hsetters hrun,
    numbered_loopSession, hopen, hshown⟩

end TvmDebug
