import TvmDebug.Proofs.Correlation.View
import TvmDebug.Proofs.Stepper.Buttons
import TvmDebug.Proofs.Stepper.Jumps
/-! # Inputs given again

Inputs are told apart by identity. One that is held already and given again is no other input, so
that nothing is found again and no cursor, mark or pointer moves: a reachable source stepper is
already what finding the source lines makes of it (`SourceStepper.refresh_self`), whatever inputs it
lacks and wherever its cursors are. A trace of the same content but another identity is another
trace, and starts from the front (`redelivery_changes_nothing`). -/
set_option autoImplicit false

namespace TvmDebug

theorem eq_of_sameInput {α : Type} {held given : Option (Shared α)}
    (h : sameInput held given = true) (hfits : Shared.Fits held given) : given = held := by
  cases held with
  | none =>
    cases given with
    | none => rfl
    | some y => cases h
  | some x =>
    cases given with
    | none => cases h
    | some y =>
      have hid : x.id = y.id := beq_iff_eq.1 h
      have hvalue := hfits x y rfl rfl hid
      obtain ⟨id, value⟩ := x
      obtain rfl : id = y.id := hid
      obtain rfl : value = y.value := hvalue
      rfl

namespace SourceStepper

variable {s : SourceStepper} {op : Op}

/-- Sets an input to what it is. -/
def Op.Repeats (s : SourceStepper) : Op → Prop
  | .setTrace trace => sameInput s.inner.trace trace = true
  | .setDebugInfo mapping instructions =>
    sameInput s.mapping mapping = true ∧ sameInput s.instructions instructions = true
  | .setEnabled enabled => s.enabled = enabled
  | .setPrimaryFile file => s.primaryFile = file
  | _ => False

theorem Cached.entry_eq_none (h : s.Cached) (hmissing : s.inputs? = none) :
    s.found.entry = none := by
  cases hentry : s.found.entry with
  | none => rfl
  | some e =>
    obtain ⟨t, m, i, hholds, -⟩ := h.holds_of_found e.1 e.2 hentry
    rw [inputs?_eq_some_iff.2 hholds] at hmissing
    cases hmissing

/-- Nothing has to be found again. -/
theorem refresh_self (h : s.Cached) : s.refresh = .ok s := by
  obtain hinputs | ⟨⟨t, m, i⟩, hinputs⟩ := Option.eq_none_or_eq_some s.inputs?
  · have hempty : s.found.isFilled = false := by
      rw [Memo.isFilled, h.entry_eq_none hinputs]
      rfl
    rw [refresh_of_missing hinputs, hempty]
    rfl
  · have hholds := inputs?_eq_some_iff.1 hinputs
    obtain ⟨stops, hentry⟩ := h.found_of_holds t m i hholds
    rw [refresh_of_holds hholds, Memo.get?_eq_some_iff.2 hentry]
    rfl

theorem apply_repeats (h : s.Cached) (hop : op.Admissible s) (hrepeats : op.Repeats s) :
    s.apply op = .ok (.nothing, s) := by
  have hrefresh := refresh_self h
  cases op with
  | setTrace trace =>
    have hinner : s.inner.setTrace trace = s.inner := if_pos hrepeats
    rw [apply, setTrace, hinner, hrefresh]
    rfl
  | setDebugInfo mapping instructions =>
    obtain ⟨-, hmapping, hinstructions⟩ := hop
    obtain rfl := eq_of_sameInput hrepeats.1 hmapping
    obtain rfl := eq_of_sameInput hrepeats.2 hinstructions
    rw [apply, setDebugInfo, hrefresh]
    rfl
  | setEnabled enabled =>
    have hkept : s.setEnabled enabled = .ok s := if_pos hrepeats
    rw [apply, hkept]
    rfl
  | setPrimaryFile file =>
    obtain rfl : s.primaryFile = file := hrepeats
    rw [apply, setPrimaryFile, hrefresh]
    rfl
  | _ => exact hrepeats.elim

end SourceStepper

theorem TraceStepper.apply_setTrace_other (s : TraceStepper) {trace : Option (Shared Trace)}
    (h : sameInput s.trace trace = false) :
    ∃ s', s.apply (.setTrace trace) = .ok (.nothing, s') ∧ s'.trace = trace ∧ s'.selected = 0 ∧
      s'.transition = none := by
  have hother : s.setTrace trace =
      { s with trace := trace, selected := 0, lastMove := none, index := s.index.reset } :=
    if_neg (Bool.eq_false_iff.1 h)
  refine ⟨s.setTrace trace, rfl, ?_⟩
  rw [hother]
  exact ⟨rfl, rfl, ite_self _⟩

/-- **Inputs given again change nothing.** -/
theorem redelivery_changes_nothing (settings : Settings) :
    (∀ s (op : SourceStepper.Op), SourceStepper.Reachable settings.stepper s → op.Admissible s →
      op.Repeats s → s.apply op = .ok (.nothing, s)) ∧
    (∀ (s : TraceStepper) trace,
      (sameInput s.trace trace = true → s.apply (.setTrace trace) = .ok (.nothing, s)) ∧
      (sameInput s.trace trace = false → ∃ s', s.apply (.setTrace trace) = .ok (.nothing, s') ∧
        s'.trace = trace ∧ s'.selected = 0 ∧ s'.transition = none)) ∧
    ∀ ops i, CorrelationView.Admissible ops → CorrelationView.held ops = some i →
      ∃ v, CorrelationView.run (.new settings.correlation) ops = .ok v ∧
        ∀ j, i.key = j.key → (CorrelationView.Op.setInputs (some j)).Admissible (some i) →
          v.apply (.setInputs (some j)) = .ok v := by
  refine ⟨fun s op h hop hrepeats => ?_, fun s trace => ⟨fun hsame => ?_, fun hother => ?_⟩,
    fun ops i hops hheld => ?_⟩
  · exact SourceStepper.apply_repeats (SourceStepper.sound_of_reachable h).toCached hop hrepeats
  · have hkept : s.setTrace trace = s := if_pos hsame
    rw [TraceStepper.apply, hkept]
  · exact s.apply_setTrace_other hother
  · obtain ⟨v, hrun, hv⟩ := CorrelationView.shows_run settings.correlation hops
    refine ⟨v, hrun, fun j hkey hadmissible => ?_⟩
    obtain ⟨-, hmapping, hinstructions⟩ := hadmissible
    obtain rfl := CorrelationView.eq_of_key_eq hkey hmapping hinstructions
    exact hv.setInputs_held hheld

/-! ## Inputs given again while a cursor has drifted -/

open SourceStepper (strayStepper reachable_stray loopMapping loopSections numbered_loopSections)
open TraceStepper (longTrace endStepper)
open CorrelationView (hoveredOnce inlinedInputs admissible_hoveredOnce admissible_inlinedInputs)

def longTraceCopy : Shared Trace := { longTrace with id := 7 }

/-- The debug information of the loop is given again after a step was picked that is that of no
stop, a trace of three steps is taken for its copy, and inputs are given again under a pointer. -/
theorem redelivery_changes_nothing_drifted :
    SourceStepper.Reachable {} strayStepper ∧ strayStepper.OffStops ∧
    strayStepper.apply (.setDebugInfo (some loopMapping) (some loopSections)) =
      .ok (.nothing, strayStepper) ∧
    (∃ s', endStepper.apply (.setTrace (some longTraceCopy)) = .ok (.nothing, s') ∧
      s'.steps = endStepper.steps ∧ s'.selected = 0 ∧ s'.transition = none) ∧
    CorrelationView.Admissible hoveredOnce ∧
    ∃ v, CorrelationView.run (.new {}) hoveredOnce = .ok v ∧
      v.apply (.setInputs (some inlinedInputs)) = .ok v := by
  obtain ⟨hsource, htrace, hview⟩ := redelivery_changes_nothing {}
  have hoff : strayStepper.OffStops := by
    unfold SourceStepper.OffStops
    decide
  have hagain : (SourceStepper.Op.setDebugInfo (some loopMapping) (some loopSections)).Admissible
      strayStepper := by
    refine ⟨?_, ?_, ?_⟩
    · rintro i ⟨⟩
      exact numbered_loopSections
    · rintro m m' ⟨⟩ ⟨⟩ -
      rfl
    · rintro i i' ⟨⟩ ⟨⟩ -
      rfl
  have hdebug := hsource _ _ reachable_stray hagain ⟨rfl, rfl⟩
  obtain ⟨s', hcopy, hheld, hselected, hmark⟩ :=
    (htrace endStepper (some longTraceCopy)).2 rfl
  have hsteps : s'.steps = endStepper.steps := by
    rw [TraceStepper.steps, hheld]
    rfl
  obtain ⟨v, hrun, hkept⟩ := hview hoveredOnce inlinedInputs admissible_hoveredOnce rfl
  exact ⟨reachable_stray, hoff, hdebug, ⟨s', hcopy, hsteps, hselected, hmark⟩,
    admissible_hoveredOnce, v, hrun, hkept _ rfl (admissible_inlinedInputs (.inr rfl))⟩

end TvmDebug
