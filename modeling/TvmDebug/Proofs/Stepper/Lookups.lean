import Mathlib.Data.List.Sort
import TvmDebug.Proofs.Stepper.Refresh
/-! # What was looked up is not shown

A stepper keeps the index of the last trace in which a line was looked up, also when the click that
looked it up was refused. Without this index it is what it shows (`TraceStepper.forget`,
`SourceStepper.forget`): steppers that are the same then answer any operation alike, and are the
same afterwards (`TraceStepper.apply_of_forget`, `SourceStepper.apply_of_forget`). -/
set_option autoImplicit false

namespace TvmDebug

/-! ## The cursor over steps -/

namespace TraceStepper

variable {s s' : TraceStepper} {memo : Memo Nat LineIndex}

def withIndex (s : TraceStepper) (memo : Memo Nat LineIndex) : TraceStepper :=
  { s with index := memo }

/-- The stepper with no line looked up. -/
def forget (s : TraceStepper) : TraceStepper := s.withIndex Memo.empty

theorem eq_withIndex (h : s'.forget = s.forget) : s' = s.withIndex s'.index :=
  congrArg (fun t => t.withIndex s'.index) h

theorem moveTo?_withIndex (s : TraceStepper) (memo : Memo Nat LineIndex) (i : Nat)
    (t : Transition) : (s.withIndex memo).moveTo? i t = (s.moveTo? i t).map (·.withIndex memo) := by
  show (if i < s.total ∧ i ≠ s.selected then _ else none) = _
  unfold moveTo?
  split <;> rfl

theorem move?_withIndex (s : TraceStepper) (memo : Memo Nat LineIndex) (m : Move) :
    (s.withIndex memo).move? m = (s.move? m).map (·.withIndex memo) := by
  have hite : ∀ (can : Bool) i, (if can then (s.withIndex memo).moveTo? i .button else none) =
      (if can then s.moveTo? i .button else none).map (·.withIndex memo) := by
    intro can i
    cases can with
    | false => rfl
    | true => exact moveTo?_withIndex s memo i .button
  cases m <;> exact hite _ _

theorem press?_withIndex (s : TraceStepper) (memo : Memo Nat LineIndex) (key : Key)
    (focus : Focus) : (s.withIndex memo).press? key focus =
      (s.press? key focus).map (·.withIndex memo) := by
  rw [press?, press?, Option.map_bind]
  congr 1
  funext m
  exact move?_withIndex s memo m

theorem select?_withIndex (s : TraceStepper) (memo : Memo Nat LineIndex) (i : Nat) :
    (s.withIndex memo).select? i = (s.select? i).map (·.withIndex memo) := by
  show (if i < s.total then _ else none) = _
  unfold select?
  split <;> rfl

/-- Another trace takes the index away with the one before. -/
theorem setTrace_withIndex (s : TraceStepper) (memo : Memo Nat LineIndex)
    (trace : Option (Shared Trace)) :
    ∃ memo', (s.withIndex memo).setTrace trace = (s.setTrace trace).withIndex memo' := by
  by_cases hsame : sameInput s.trace trace = true
  · refine ⟨memo, (if_pos hsame).trans ?_⟩
    rw [setTrace, if_pos hsame]
  · refine ⟨Memo.empty, (if_neg hsame).trans ?_⟩
    rw [setTrace, if_neg hsame]
    rfl

/-- Whatever was looked up before, the steps of a line are the same. -/
theorem stepsAt_withIndex (h : s.Sound) (h' : (s.withIndex memo).Sound) (line : UInt32) :
    ∃ positions memo₁ memo₂, s.stepsAt line = .ok (positions, s.withIndex memo₁) ∧
      (s.withIndex memo).stepsAt line = .ok (positions, s.withIndex memo₂) := by
  obtain ⟨positions, memo₁, hok, -, hascending, hmem⟩ := stepsAt_ok h line
  obtain ⟨positions', memo₂, hok', -, hascending', hmem'⟩ := stepsAt_ok h' line
  obtain rfl : positions' = positions :=
    hascending'.eq_of_mem_iff hascending fun i => (hmem' i).trans (hmem i).symm
  exact ⟨positions', memo₁, memo₂, hok, hok'⟩

theorem click_withIndex (h : s.Sound) (h' : (s.withIndex memo).Sound) (line : UInt32) :
    ∃ yes s₁ memo₁, s.click line = .ok (yes, s₁) ∧
      (s.withIndex memo).click line = .ok (yes, s₁.withIndex memo₁) := by
  obtain ⟨positions, memo₁, memo₂, hok, hok'⟩ := stepsAt_withIndex h h' line
  cases hafter : after? positions s.selected with
  | none =>
    exact ⟨_, _, memo₂, click_of_after?_none hok hafter, click_of_after?_none hok' hafter⟩
  | some i =>
    exact ⟨_, _, memo₂, click_of_after?_some hok hafter, click_of_after?_some hok' hafter⟩

theorem settle_withIndex (s : TraceStepper) (memo : Memo Nat LineIndex)
    (moved : Option TraceStepper) :
    (s.withIndex memo).settle (moved.map (·.withIndex memo)) =
      Prod.map id (·.withIndex memo) (s.settle moved) := by
  cases moved <;> rfl

/-- **Lines looked up are not shown by a trace stepper.** -/
theorem apply_of_forget (h : s.Sound) (h' : s'.Sound) (hsame : s'.forget = s.forget) (op : Op) :
    (s'.apply op).map (Prod.map id forget) = (s.apply op).map (Prod.map id forget) := by
  rw [eq_withIndex hsame] at h' ⊢
  generalize s'.index = memo at h' ⊢
  have hsettle : ∀ moved, Prod.map id forget
      ((s.withIndex memo).settle (Option.map (·.withIndex memo) moved)) =
        Prod.map id forget (s.settle moved) := by
    intro moved
    rw [settle_withIndex]
    rfl
  cases op with
  | setTrace trace =>
    obtain ⟨memo', htrace⟩ := setTrace_withIndex s memo trace
    rw [apply, htrace]
    rfl
  | move m =>
    rw [apply, move?_withIndex]
    exact congrArg Except.ok (hsettle _)
  | select i =>
    rw [apply, select?_withIndex]
    exact congrArg Except.ok (hsettle _)
  | press key focus =>
    rw [apply, press?_withIndex]
    exact congrArg Except.ok (hsettle _)
  | click line =>
    obtain ⟨yes, s₁, memo₁, hok, hok'⟩ := click_withIndex h h' line
    rw [apply, apply, hok, hok']
    rfl
  | stepsAt line =>
    obtain ⟨positions, memo₁, memo₂, hok, hok'⟩ := stepsAt_withIndex h h' line
    rw [apply, apply, hok, hok']
    rfl

end TraceStepper

/-! ## The cursor over source lines -/

namespace SourceStepper

variable {s s' : SourceStepper} {memo : Memo Nat LineIndex}

def withIndex (s : SourceStepper) (memo : Memo Nat LineIndex) : SourceStepper :=
  s.withInner (s.inner.withIndex memo)

/-- The stepper with no line looked up. -/
def forget (s : SourceStepper) : SourceStepper := s.withIndex Memo.empty

theorem eq_withIndex (h : s'.forget = s.forget) : s' = s.withIndex s'.inner.index :=
  congrArg (fun t => t.withIndex s'.inner.index) h

theorem sync_withIndex (s : SourceStepper) (memo : Memo Nat LineIndex) :
    (s.withIndex memo).sync = s.sync.withIndex memo := by
  have hstop : (s.withIndex memo).stops[(s.withIndex memo).cursor]? = s.stops[s.cursor]? := rfl
  unfold sync
  rw [hstop]
  split
  · next stop _ =>
    show s.withInner (((s.inner.withIndex memo).select? stop.stepIndex).getD _) = _
    rw [TraceStepper.select?_withIndex]
    cases s.inner.select? stop.stepIndex <;> rfl
  · rfl

theorem follow_withIndex (s : SourceStepper) (memo : Memo Nat LineIndex) :
    (s.withIndex memo).follow = s.follow.withIndex memo := by
  have hstop : ((s.withIndex memo).stops.findIdx? fun stop =>
      stop.stepIndex == (s.withIndex memo).inner.selected) =
      s.stops.findIdx? fun stop => stop.stepIndex == s.inner.selected := rfl
  unfold follow
  rw [hstop]
  split <;> rfl

theorem refresh_withIndex (s : SourceStepper) (memo : Memo Nat LineIndex) :
    (s.withIndex memo).refresh = s.refresh.map (·.withIndex memo) := by
  have hinputs : (s.withIndex memo).inputs? = s.inputs? := rfl
  obtain hmissing | ⟨⟨t, m, i⟩, hheld⟩ := Option.eq_none_or_eq_some s.inputs?
  · rw [refresh_of_missing hmissing, refresh_of_missing (hinputs.trans hmissing)]
    show Except.ok (if s.found.isFilled then _ else _) = _
    split <;> rfl
  · rw [refresh_of_holds (inputs?_eq_some_iff.1 hheld),
      refresh_of_holds (inputs?_eq_some_iff.1 (hinputs.trans hheld))]
    have hfile : (s.withIndex memo).primaryFile = s.primaryFile := rfl
    cases hget : s.found.get? (s.keyOf t m i) with
    | some stops =>
      have hget' : (s.withIndex memo).found.get? ((s.withIndex memo).keyOf t m i) = some stops :=
        hget
      rw [hget']
      rfl
    | none =>
      have hget' : (s.withIndex memo).found.get? ((s.withIndex memo).keyOf t m i) = none := hget
      rw [hget', Memo.getOrComputeM_miss hget, Memo.getOrComputeM_miss hget', hfile]
      cases condense t.value m.value i.value s.primaryFile with
      | error fault => rfl
      | ok stops =>
        exact congrArg Except.ok (sync_withIndex
          { s with found := ⟨some (s.keyOf t m i, stops)⟩, cursor := 0 } memo)

theorem moveTo?_withIndex (s : SourceStepper) (memo : Memo Nat LineIndex) (k : Nat)
    (t : Transition) : (s.withIndex memo).moveTo? k t = (s.moveTo? k t).map (·.withIndex memo) := by
  have hsync : ({ s.withIndex memo with cursor := k } : SourceStepper).sync =
      ({ s with cursor := k } : SourceStepper).sync.withIndex memo :=
    sync_withIndex { s with cursor := k } memo
  show (if k < s.stops.length ∧ k ≠ s.cursor then _ else none) = _
  unfold moveTo?
  split
  · simp only [hsync]
    rfl
  · rfl

theorem moveFunc?_withIndex (s : SourceStepper) (memo : Memo Nat LineIndex) (m : Move) :
    (s.withIndex memo).moveFunc? m = (s.moveFunc? m).map (·.withIndex memo) := by
  have hto := moveTo?_withIndex s memo
  cases m with
  | prev =>
    show (if 0 < s.cursor then (s.withIndex memo).moveTo? (s.cursor - 1) .button else none) = _
    rw [hto, moveFunc?]
    split <;> rfl
  | next => exact hto _ _
  | first => exact hto _ _
  | last =>
    show (if 0 < s.stops.length then (s.withIndex memo).moveTo? (s.stops.length - 1) .button
      else none) = _
    rw [hto, moveFunc?]
    split <;> rfl

theorem findFunc?_withIndex (s : SourceStepper) (memo : Memo Nat LineIndex) (line : UInt32) :
    (s.withIndex memo).findFunc? line = (s.findFunc? line).map (·.withIndex memo) := by
  have hsync : ∀ k, ({ s.withIndex memo with cursor := k } : SourceStepper).sync =
      ({ s with cursor := k } : SourceStepper).sync.withIndex memo := fun k =>
    sync_withIndex { s with cursor := k } memo
  show (s.stops.findIdx? fun stop => stop.line == line).map _ = _
  rw [findFunc?, Option.map_map]
  congr 1
  funext k
  simp only [hsync]
  rfl

theorem move?_withIndex (s : SourceStepper) (memo : Memo Nat LineIndex) (m : Move) :
    (s.withIndex memo).move? m = (s.move? m).map (·.withIndex memo) := by
  show (if s.isSourceMode then (s.withIndex memo).moveFunc? m else
    ((s.inner.withIndex memo).move? m).map (s.withIndex memo).withInner) = _
  rw [moveFunc?_withIndex, TraceStepper.move?_withIndex, move?]
  split
  · rfl
  · rw [Option.map_map, Option.map_map]
    rfl

theorem press?_withIndex (s : SourceStepper) (memo : Memo Nat LineIndex) (key : Key)
    (focus : Focus) : (s.withIndex memo).press? key focus =
      (s.press? key focus).map (·.withIndex memo) := by
  rw [press?, press?, Option.map_bind]
  congr 1
  funext m
  exact move?_withIndex s memo m

theorem select?_withIndex (s : SourceStepper) (memo : Memo Nat LineIndex) (i : Nat) :
    (s.withIndex memo).select? i = (s.select? i).map (·.withIndex memo) := by
  show ((s.inner.withIndex memo).select? i).map _ = _
  rw [TraceStepper.select?_withIndex, select?, Option.map_map, Option.map_map]
  congr 1
  funext inner
  exact follow_withIndex (s.withInner inner) memo

theorem click_withIndex (h : s.inner.Sound) (h' : (s.withIndex memo).inner.Sound) (line : UInt32) :
    ∃ yes s₁ memo₁, s.click line = .ok (yes, s₁) ∧
      (s.withIndex memo).click line = .ok (yes, s₁.withIndex memo₁) := by
  obtain ⟨yes, inner, memo₁, hok, hok'⟩ := TraceStepper.click_withIndex h h' line
  have hok'' : (s.withIndex memo).inner.click line = .ok (yes, inner.withIndex memo₁) := hok'
  refine ⟨yes, _, memo₁, by rw [click, hok]; rfl, ?_⟩
  rw [click, hok'']
  cases yes with
  | false => rfl
  | true =>
    exact congrArg (fun s₁ => Except.ok (true, s₁)) (follow_withIndex (s.withInner inner) memo₁)

theorem settle_withIndex (s : SourceStepper) (memo : Memo Nat LineIndex)
    (moved : Option SourceStepper) :
    (s.withIndex memo).settle (moved.map (·.withIndex memo)) =
      Prod.map id (·.withIndex memo) (s.settle moved) := by
  cases moved <;> rfl

/-- **Lines looked up are not shown by a source stepper.** -/
theorem apply_of_forget (h : s.inner.Sound) (h' : s'.inner.Sound) (hsame : s'.forget = s.forget)
    (op : Op) : (s'.apply op).map (Prod.map id forget) = (s.apply op).map (Prod.map id forget) := by
  rw [eq_withIndex hsame] at h' ⊢
  generalize s'.inner.index = memo at h' ⊢
  have hsettle : ∀ moved, Prod.map id forget
      ((s.withIndex memo).settle (Option.map (·.withIndex memo) moved)) =
        Prod.map id forget (s.settle moved) := by
    intro moved
    rw [settle_withIndex]
    rfl
  have hrefresh : ∀ (s₁ : SourceStepper) (memo₁ : Memo Nat LineIndex),
      (((s₁.withIndex memo₁).refresh.map (Answer.nothing, ·)).map (Prod.map id forget)) =
        (s₁.refresh.map (Answer.nothing, ·)).map (Prod.map id forget) := by
    intro s₁ memo₁
    rw [refresh_withIndex]
    cases s₁.refresh <;> rfl
  cases op with
  | setTrace trace =>
    obtain ⟨memo', htrace⟩ := TraceStepper.setTrace_withIndex s.inner memo trace
    have htrace' : (s.withIndex memo).inner.setTrace trace = _ := htrace
    rw [apply, setTrace, htrace']
    exact hrefresh { s with inner := s.inner.setTrace trace } memo'
  | setDebugInfo mapping instructions =>
    exact hrefresh { s with mapping := mapping, instructions := instructions } memo
  | setEnabled enabled =>
    show ((if s.enabled = enabled then _ else _ : Except Fault SourceStepper).map _).map _ = _
    rw [apply, setEnabled]
    split
    · rfl
    · exact hrefresh { s with enabled := enabled } memo
  | setPrimaryFile file => exact hrefresh { s with primaryFile := file } memo
  | move m =>
    rw [apply, move?_withIndex]
    exact congrArg Except.ok (hsettle _)
  | moveFunc m =>
    rw [apply, moveFunc?_withIndex]
    exact congrArg Except.ok (hsettle _)
  | findFunc line =>
    rw [apply, findFunc?_withIndex]
    exact congrArg Except.ok (hsettle _)
  | select i =>
    rw [apply, select?_withIndex]
    exact congrArg Except.ok (hsettle _)
  | press key focus =>
    rw [apply, press?_withIndex]
    exact congrArg Except.ok (hsettle _)
  | click line =>
    obtain ⟨yes, s₁, memo₁, hok, hok'⟩ := click_withIndex h h' line
    rw [apply, apply, hok, hok']
    rfl

end SourceStepper

end TvmDebug
