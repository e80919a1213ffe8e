import TvmDebug.Proofs.Stepper.Lookups
import TvmDebug.Proofs.Stepper.Reachable
import TvmDebug.Proofs.Stepper.TraceRuns
/-! # Buttons tell what moves do

A stepper has a cursor that moves take along: the selected step, or in source mode the source line.
`Controls` is what the two steppers have in common here, and `Controls.Agree` what is promised of
it: a move is refused exactly when its button is off, otherwise leads where it says, and a refusal
leaves the stepper as it was, but for a line that was looked up, which is not shown
(`Controls.Unmoved`).

Both follow from the rule for any cursor (`Controls.Follows`), which both steppers obey
(`TraceStepper.follows`, `SourceStepper.follows`). -/
set_option autoImplicit false

namespace TvmDebug

/-! ## Moves and their buttons -/

namespace Move

/-- The button of a move, of the two there are. -/
def enabled (canPrev canNext : Bool) : Move → Bool
  | .prev | .first => canPrev
  | .next | .last => canNext

theorem isSome_target? (m : Move) (n i : Nat) :
    (m.target? n i).isSome = m.enabled (decide (0 < i)) (decide (i + 1 < n)) := by
  have hite : ∀ (p : Prop) [Decidable p] (k : Nat),
      (if p then some k else none).isSome = decide p := by
    intro p _ k
    by_cases hp : p <;> simp [hp]
  cases m <;> exact hite _ _

/-- From where the next position is, the one before is the way back. -/
theorem target?_prev_of_next {n i k : Nat} (h : Move.next.target? n i = some k) :
    Move.prev.target? n k = some i := by
  obtain ⟨-, hk⟩ := Option.ite_none_right_eq_some.1 h
  obtain rfl := Option.some.inj hk
  rw [target?, if_pos (Nat.succ_pos i)]
  rfl

end Move

theorem Key.move?_eq_none {key : Key} {focus : Focus} (h : focus ≠ .document ∨ key = .other) :
    key.move? focus = none := by
  cases focus <;> cases key <;> simp_all [Key.move?]

/-! ## What two steppers have in common -/

/-- Operations with their answers, the cursor that moves take along, over how many positions it
goes, two buttons, and all that is shown. -/
structure Controls (σ ω α : Type) where
  apply : σ → ω → Except Fault (α × σ)
  move : Move → ω
  press : Key → Focus → ω
  click : UInt32 → ω
  moved : Bool → α
  cursor : σ → Nat
  total : σ → Nat
  canPrev : σ → Bool
  canNext : σ → Bool
  forget : σ → σ
  moved_injective : Function.Injective moved

namespace Controls

variable {σ ω α : Type} {c : Controls σ ω α} {s s' : σ} {m : Move}

/-- A refused operation changes nothing, unless it is a click: that changes nothing which any
operation shows. -/
structure Unmoved (c : Controls σ ω α) (s : σ) (op : ω) (s' : σ) : Prop where
  eq : (∀ line, op ≠ c.click line) → s' = s
  shows : c.forget s' = c.forget s
  answers : ∀ op', (c.apply s' op').map (Prod.map id c.forget) =
    (c.apply s op').map (Prod.map id c.forget)

theorem unmoved_of_eq {op : ω} (h : s' = s) : c.Unmoved s op s' where
  eq := fun _ => h
  shows := congrArg c.forget h
  answers := fun op' => by rw [h]

/-- The buttons tell what moves do, keys do the same, and a refusal changes nothing. -/
structure Agree (c : Controls σ ω α) (s : σ) : Prop where
  answers : ∀ m, ∃ s',
    c.apply s (c.move m) = .ok (c.moved (m.enabled (c.canPrev s) (c.canNext s)), s')
  leads : ∀ m s', c.apply s (c.move m) = .ok (c.moved true, s') →
    m.Leads (c.total s) (c.cursor s) (c.cursor s')
  returns : ∀ s', c.apply s (c.move .next) = .ok (c.moved true, s') →
    ∃ s'', c.apply s' (c.move .prev) = .ok (c.moved true, s'') ∧ c.cursor s'' = c.cursor s
  left : c.apply s (c.press .left .document) = c.apply s (c.move .prev)
  right : c.apply s (c.press .right .document) = c.apply s (c.move .next)
  ignored : ∀ key focus, focus ≠ .document ∨ key = .other →
    c.apply s (c.press key focus) = .ok (c.moved false, s)
  refused : ∀ op s', c.apply s op = .ok (c.moved false, s') → c.Unmoved s op s'

/-- Moves go by the rule for any cursor, and the buttons by its conditions. -/
structure Follows (c : Controls σ ω α) (s : σ) : Prop where
  canPrev : c.canPrev s = decide (0 < c.cursor s)
  canNext : c.canNext s = decide (c.cursor s + 1 < c.total s)
  moves : ∀ m, ∃ s',
    c.apply s (c.move m) = .ok (c.moved (m.target? (c.total s) (c.cursor s)).isSome, s') ∧
      ∀ k, m.target? (c.total s) (c.cursor s) = some k → c.cursor s' = k ∧ c.total s' = c.total s

theorem Follows.answers (h : c.Follows s) (m : Move) : ∃ s',
    c.apply s (c.move m) = .ok (c.moved (m.enabled (c.canPrev s) (c.canNext s)), s') := by
  obtain ⟨s', hok, -⟩ := h.moves m
  refine ⟨s', ?_⟩
  rw [hok, Move.isSome_target?, h.canPrev, h.canNext]

theorem Follows.target?_eq (h : c.Follows s)
    (hmove : c.apply s (c.move m) = .ok (c.moved true, s')) :
    m.target? (c.total s) (c.cursor s) = some (c.cursor s') ∧ c.total s' = c.total s := by
  obtain ⟨s'', hok, htarget⟩ := h.moves m
  obtain ⟨hmoved, rfl⟩ := Prod.mk.inj (Except.ok.inj (hok.symm.trans hmove))
  obtain ⟨k, hk⟩ := Option.isSome_iff_exists.1 (c.moved_injective hmoved)
  obtain ⟨hcursor, htotal⟩ := htarget k hk
  exact ⟨hcursor ▸ hk, htotal⟩

theorem Follows.leads (h : c.Follows s)
    (hmove : c.apply s (c.move m) = .ok (c.moved true, s')) :
    m.Leads (c.total s) (c.cursor s) (c.cursor s') :=
  Move.leads_of_target? (h.target?_eq hmove).1

theorem Follows.returns (h : c.Follows s) (h' : c.Follows s')
    (hnext : c.apply s (c.move .next) = .ok (c.moved true, s')) :
    ∃ s'', c.apply s' (c.move .prev) = .ok (c.moved true, s'') ∧ c.cursor s'' = c.cursor s := by
  obtain ⟨htarget, htotal⟩ := h.target?_eq hnext
  have hback : Move.prev.target? (c.total s') (c.cursor s') = some (c.cursor s) := by
    rw [htotal]
    exact Move.target?_prev_of_next htarget
  obtain ⟨s'', hok, hcursor⟩ := h'.moves .prev
  rw [hback] at hok
  exact ⟨s'', hok, (hcursor _ hback).1⟩

end Controls

/-! ## The cursor over steps -/

namespace TraceStepper

variable {s s' : TraceStepper}

def controls : Controls TraceStepper Op Answer where
  apply := apply
  move := .move
  press := .press
  click := .click
  moved := .moved
  cursor := selected
  total := total
  canPrev := canPrev
  canNext := canNext
  forget := forget
  moved_injective := fun _ _ h => Answer.moved.inj h

theorem follows (h : s.Sound) : controls.Follows s where
  canPrev := canPrev_eq h
  canNext := rfl
  moves := fun m => by
    have hmove := move?_eq h m
    refine ⟨(s.move? m).getD s, ?_, fun k hk => ?_⟩
    · show Except.ok (s.settle (s.move? m)) = _
      rw [settle, hmove, Option.isSome_map]
      rfl
    · have htarget : m.target? s.total s.selected = some k := hk
      rw [hmove, htarget]
      exact ⟨rfl, rfl⟩

theorem eq_of_settle_refused {moved : Option TraceStepper}
    (h : s.settle moved = (.moved false, s')) : s' = s := by
  cases moved with
  | none => exact (Prod.mk.inj h).2.symm
  | some s₁ => cases h

theorem unmoved_of_refused (hs : s.Sound) {op : Op} (h : s.apply op = .ok (.moved false, s')) :
    controls.Unmoved s op s' := by
  cases op with
  | setTrace trace => cases h
  | move m => exact Controls.unmoved_of_eq (eq_of_settle_refused (Except.ok.inj h))
  | select i => exact Controls.unmoved_of_eq (eq_of_settle_refused (Except.ok.inj h))
  | press key focus => exact Controls.unmoved_of_eq (eq_of_settle_refused (Except.ok.inj h))
  | click line =>
    cases outcome_of_apply hs (show Op.Admissible (.click line) from trivial) h with
    | refused => exact Controls.unmoved_of_eq rfl
    | missed _ memo hsound =>
      exact ⟨fun hother => absurd rfl (hother line), rfl, apply_of_forget hs hsound rfl⟩
  | stepsAt line =>
    obtain ⟨looked, -, hanswer⟩ := exists_of_map_eq_ok h
    cases hanswer

theorem controls_agree (h : s.Sound) : controls.Agree s where
  answers := (follows h).answers
  leads := fun _ _ => (follows h).leads
  returns := fun s' hnext => by
    have hs' := (outcome_of_apply h (show Op.Admissible (.move .next) from trivial) hnext).sound h
    exact (follows h).returns (follows hs') hnext
  left := rfl
  right := rfl
  ignored := fun key focus hignored => by
    show Except.ok (s.settle (s.press? key focus)) = _
    rw [press?, Key.move?_eq_none hignored]
    rfl
  refused := fun _ _ => unmoved_of_refused h

/-- At the end of a trace of three steps. -/
def endStepper : TraceStepper := ⟨some longTrace, 2, some .button, defaultResetMs, Memo.empty⟩

theorem reachable_end : Reachable {} endStepper := by
  refine ⟨[.setTrace (some longTrace), .move .last], ?_, rfl⟩
  simpa [Op.Admissible] using numbered_longTrace

end TraceStepper

/-! ## The cursor over source lines, where there are any -/

namespace SourceStepper

variable {s s' : SourceStepper}

/-- The cursor that moves take along. -/
def activeCursor (s : SourceStepper) : Nat := if s.isSourceMode then s.cursor else s.selected

/-- The number of positions of that cursor. -/
def activeTotal (s : SourceStepper) : Nat := if s.isSourceMode then s.stops.length else s.total

def controls : Controls SourceStepper Op Answer where
  apply := apply
  move := .move
  press := .press
  click := .click
  moved := .moved
  cursor := activeCursor
  total := activeTotal
  canPrev := canPrev
  canNext := canNext
  forget := forget
  moved_injective := fun _ _ h => Answer.moved.inj h

theorem Navigates.activeTotal (h : s.Navigates s') : s'.activeTotal = s.activeTotal := by
  have htotal : s'.total = s.total := congrArg List.length h.steps
  rw [SourceStepper.activeTotal, h.isSourceMode, h.stops, htotal]
  rfl

/-- In either mode a move takes the cursor along by the rule for any cursor. -/
theorem activeCursor_move? (h : s.Sound) (m : Move) :
    (s.move? m).map activeCursor = m.target? s.activeTotal s.activeCursor := by
  cases hmode : s.isSourceMode with
  | true =>
    have hmove : s.move? m = s.moveFunc? m := if_pos hmode
    rw [hmove, moveFunc?_eq h, activeTotal, activeCursor, if_pos hmode, if_pos hmode]
    cases htarget : m.target? s.stops.length s.cursor with
    | none => rfl
    | some k =>
      obtain ⟨hlt, -⟩ := Move.target?_spec h.cursor_pos htarget
      have hactive : (s.onStop k s.stops[k] (some .button)).activeCursor = k := if_pos hmode
      rw [Option.bind_some, List.getElem?_eq_getElem hlt, Option.map_some, Option.map_some, hactive]
  | false =>
    have hmove : s.move? m = (s.inner.move? m).map s.withInner := by
      rw [move?, hmode]
      rfl
    have hactive : ∀ inner, (s.withInner inner).activeCursor = inner.selected := by
      intro inner
      have hmode' : (s.withInner inner).isSourceMode = false := hmode
      rw [activeCursor, hmode']
      rfl
    rw [hmove, TraceStepper.move?_eq h.inner, activeTotal, activeCursor, hmode, Option.map_map,
      Option.map_map]
    show Option.map _ (m.target? s.inner.total s.inner.selected) =
      m.target? s.inner.total s.inner.selected
    simp [Function.comp_def, hactive]

theorem follows (h : s.Sound) : controls.Follows s where
  canPrev := by
    show s.canPrev = decide (0 < s.activeCursor)
    rw [canPrev, activeCursor, TraceStepper.canPrev_eq h.inner]
    split <;> rfl
  canNext := by
    show s.canNext = decide (s.activeCursor + 1 < s.activeTotal)
    rw [canNext, activeCursor, activeTotal]
    split <;> rfl
  moves := fun m => by
    have hcursor := activeCursor_move? h m
    refine ⟨(s.move? m).getD s, ?_, fun k hk => ?_⟩
    · show Except.ok (Answer.moved (s.move? m).isSome, _) =
        Except.ok (Answer.moved (m.target? s.activeTotal s.activeCursor).isSome, _)
      rw [← hcursor, Option.isSome_map]
    · obtain ⟨s', hmove, hactive⟩ := Option.map_eq_some_iff.1 (hcursor.trans hk)
      rw [hmove]
      exact ⟨hactive, (navigates_of_move? h hmove).activeTotal⟩

theorem eq_of_settle_refused {moved : Option SourceStepper}
    (h : s.settle moved = (.moved false, s')) : s' = s := by
  cases moved with
  | none => exact (Prod.mk.inj h).2.symm
  | some s₁ => cases h

theorem unmoved_of_refused (hs : s.Sound) {op : Op} (h : s.apply op = .ok (.moved false, s')) :
    controls.Unmoved s op s' := by
  have hset : ∀ x : Except Fault SourceStepper,
      x.map (Answer.nothing, ·) ≠ .ok (.moved false, s') := by
    intro x hx
    obtain ⟨s₁, -, hanswer⟩ := exists_of_map_eq_ok hx
    cases hanswer
  cases op with
  | setTrace trace => exact absurd h (hset _)
  | setDebugInfo mapping instructions => exact absurd h (hset _)
  | setEnabled enabled => exact absurd h (hset _)
  | setPrimaryFile file => exact absurd h (hset _)
  | move m => exact Controls.unmoved_of_eq (eq_of_settle_refused (Except.ok.inj h))
  | moveFunc m => exact Controls.unmoved_of_eq (eq_of_settle_refused (Except.ok.inj h))
  | findFunc line => exact Controls.unmoved_of_eq (eq_of_settle_refused (Except.ok.inj h))
  | select i => exact Controls.unmoved_of_eq (eq_of_settle_refused (Except.ok.inj h))
  | press key focus => exact Controls.unmoved_of_eq (eq_of_settle_refused (Except.ok.inj h))
  | click line =>
    cases outcome_of_step hs ⟨show Op.Admissible s (.click line) from trivial, h⟩ with
    | refused => exact Controls.unmoved_of_eq rfl
    | missed _ memo hsound =>
      exact ⟨fun hother => absurd rfl (hother line), rfl, apply_of_forget hs.inner hsound rfl⟩

theorem controls_agree (h : s.Sound) : controls.Agree s where
  answers := (follows h).answers
  leads := fun _ _ => (follows h).leads
  returns := fun s' hnext => by
    have hs' := (outcome_of_step h ⟨show Op.Admissible s (.move .next) from trivial, hnext⟩).sound h
    exact (follows h).returns (follows hs') hnext
  left := rfl
  right := rfl
  ignored := fun key focus hignored => by
    show Except.ok (s.settle (s.press? key focus)) = _
    rw [press?, Key.move?_eq_none hignored]
    rfl
  refused := fun _ _ => unmoved_of_refused h

/-- **Buttons and moves.** -/
theorem buttons_agree (settings : StepperSettings) :
    (∀ t, TraceStepper.Reachable settings t → TraceStepper.controls.Agree t) ∧
      ∀ s, Reachable settings s → controls.Agree s ∧
        ∀ m s', s.apply (.move m) = .ok (.moved true, s') → s'.isSourceMode = s.isSourceMode := by
  refine ⟨fun t ht => ?_, fun s h => ?_⟩
  · exact TraceStepper.controls_agree (TraceStepper.sound_of_reachable ht)
  · have hs := sound_of_reachable h
    refine ⟨controls_agree hs, fun m s' hmove => ?_⟩
    have hmoved := move?_of_step ⟨show Op.Admissible s (.move m) from trivial, hmove⟩
    exact (navigates_of_move? hs hmoved).isSourceMode

/-! ## At the two ends -/

open TraceStepper (endStepper reachable_end)

/-- At the end of a trace the next step is refused, and so is a click on a line that no step
executed, which is looked up. In the loop the next source line is not refused, and the way back
leads to the first one again. -/
theorem buttons_agree_ends : TraceStepper.Reachable {} endStepper ∧ Reachable {} loopStepper ∧
    endStepper.canNext = false ∧
    endStepper.apply (.move .next) = .ok (.moved false, endStepper) ∧
    (∃ t', endStepper.apply (.click 99) = .ok (.moved false, t') ∧ t'.index.isFilled = true ∧
      t'.forget = endStepper.forget) ∧
    loopStepper.canPrev = false ∧ loopStepper.canNext = true ∧
    ∃ s' s'', loopStepper.apply (.move .next) = .ok (.moved true, s') ∧ s'.activeCursor = 1 ∧
      s'.apply (.move .prev) = .ok (.moved true, s'') ∧ s''.activeCursor = 0 := by
  obtain ⟨htrace, hsource⟩ := buttons_agree {}
  have hend := htrace endStepper reachable_end
  obtain ⟨hloop, -⟩ := hsource loopStepper reachable_loop
  obtain ⟨t', hrefused⟩ := hend.answers .next
  obtain rfl := (hend.refused _ t' hrefused).eq nofun
  have hmissed : endStepper.apply (.click 99) = .ok (.moved false,
      endStepper.withIndex ⟨some (0, SortedMap.ofList [(10, [0, 2]), (20, [1])])⟩) := rfl
  have hshows := (hend.refused (.click 99) _ hmissed).shows
  obtain ⟨s', hnext⟩ := hloop.answers .next
  obtain ⟨hcursor, -⟩ := hloop.leads .next s' hnext
  obtain ⟨s'', hprev, hback⟩ := hloop.returns s' hnext
  exact ⟨reachable_end, reachable_loop, rfl, hrefused, ⟨_, hmissed, rfl, hshows⟩, rfl, rfl, s', s'',
    hnext, hcursor, hprev, hback⟩

end SourceStepper

end TvmDebug
