import Mathlib.Logic.Relation
import TvmDebug.Proofs.Stepper.Refresh
/-! # Every reachable source stepper is sound

An operation whose inputs have numbered lines, and an identity of their own, cannot fail
(`apply_ok`); it moves, picks a step or sets an input, and in each case leaves a sound stepper
(`Outcome.sound`). By induction so does every run (`sound_of_reachable`), which keeps the source
lines those of the inputs held and both cursors in bounds (`source_lines_of_reachable`). -/
set_option autoImplicit false

namespace TvmDebug.SourceStepper

/-! ## Operations by what they move -/

namespace Op

/-- Moves to a neighbour, to an end or to a source line. -/
def Navigates : Op → Prop
  | .move _ | .moveFunc _ | .findFunc _ | .press _ _ => True
  | _ => False

/-- Picks a step of the trace. -/
def Picks : Op → Prop
  | .select _ | .click _ => True
  | _ => False

/-- The inputs given have numbered lines, and where one is held already, the identity of that one
only if they are the same input. -/
def Admissible (s : SourceStepper) : Op → Prop
  | .setTrace trace => ∀ t, trace = some t → t.value.Numbered
  | .setDebugInfo mapping instructions =>
    (∀ i, instructions = some i → i.value.Numbered) ∧ Shared.Fits s.mapping mapping ∧
      Shared.Fits s.instructions instructions
  | _ => True

end Op

/-- An operation on admissible inputs, with its answer. -/
def Step (s : SourceStepper) (op : Op) (a : Answer) (s' : SourceStepper) : Prop :=
  op.Admissible s ∧ s.apply op = .ok (a, s')

/-- Some operations lead from a new stepper to `s`. -/
def Reachable (settings : StepperSettings) : SourceStepper → Prop :=
  Relation.ReflTransGen (fun s s' => ∃ op a, Step s op a s') (new settings)

/-! ## What an operation does -/

/-- The answer and the stepper after an operation. -/
inductive Outcome (s : SourceStepper) : Op → Answer → SourceStepper → Prop
  | refused (op : Op) : Outcome s op (.moved false) s
  | missed (line : UInt32) (memo : Memo Nat LineIndex)
      (h : ({ s.inner with index := memo } : TraceStepper).Sound) :
      Outcome s (.click line) (.moved false) (s.withInner { s.inner with index := memo })
  | navigated (op : Op) (s' : SourceStepper) (hop : op.Navigates) (h : s.Navigates s') :
      Outcome s op (.moved true) s'
  | picked (op : Op) (inner : TraceStepper) (hop : op.Picks) (h : s.inner.Moves inner) :
      Outcome s op (.moved true) (s.withInner inner).follow
  | unchanged (op : Op) : Outcome s op .nothing s
  | set (op : Op) (s₁ s' : SourceStepper) (h : s.Prepared s₁) (hr : Refreshed s s₁ s') :
      Outcome s op .nothing s'

section Outcome
variable {s s' : SourceStepper}

theorem outcome_navigates (op : Op) (hop : op.Navigates) {moved : Option SourceStepper}
    (h : ∀ s', moved = some s' → s.Navigates s') :
    Outcome s op (s.settle moved).1 (s.settle moved).2 := by
  cases moved with
  | none => exact .refused op
  | some s' => exact .navigated op s' hop (h s' rfl)

theorem outcome_picks (op : Op) (hop : op.Picks) {moved : Option TraceStepper}
    (h : ∀ inner, moved = some inner → s.inner.Moves inner) :
    Outcome s op (s.settle (moved.map fun inner => (s.withInner inner).follow)).1
      (s.settle (moved.map fun inner => (s.withInner inner).follow)).2 := by
  cases moved with
  | none => exact .refused op
  | some inner => exact .picked op inner hop (h inner rfl)

theorem outcome_set (hs : s.Sound) (op : Op) {s₁ : SourceStepper} (h : s.Prepared s₁) :
    ∃ s', s₁.refresh.map (Answer.nothing, ·) = .ok (.nothing, s') ∧ Outcome s op .nothing s' := by
  obtain ⟨s', hok, hr⟩ := h.refresh hs
  exact ⟨s', by rw [hok]; rfl, .set op s₁ s' h hr⟩

/-- An admissible operation cannot fail. -/
theorem apply_ok (hs : s.Sound) {op : Op} (hop : op.Admissible s) :
    ∃ a s', s.apply op = .ok (a, s') ∧ Outcome s op a s' := by
  cases op with
  | setTrace trace =>
    obtain ⟨s', h⟩ := outcome_set hs (.setTrace trace) (prepared_setTrace hs hop)
    exact ⟨_, s', h⟩
  | setDebugInfo mapping instructions =>
    obtain ⟨hnum, hm, hi⟩ := hop
    obtain ⟨s', h⟩ := outcome_set hs (.setDebugInfo mapping instructions)
      (prepared_setDebugInfo hs hnum hm hi)
    exact ⟨_, s', h⟩
  | setEnabled enabled =>
    by_cases heq : s.enabled = enabled
    · refine ⟨_, s, ?_, .unchanged _⟩
      rw [apply, setEnabled, if_pos heq]
      rfl
    · obtain ⟨s', hok, hout⟩ := outcome_set hs (.setEnabled enabled) (prepared_setEnabled hs heq)
      refine ⟨_, s', ?_, hout⟩
      rw [apply, setEnabled, if_neg heq, hok]
  | setPrimaryFile file =>
    obtain ⟨s', h⟩ := outcome_set hs (.setPrimaryFile file) (prepared_setPrimaryFile hs file)
    exact ⟨_, s', h⟩
  | move m =>
    exact ⟨_, _, rfl, outcome_navigates (.move m) trivial fun _ => navigates_of_move? hs⟩
  | moveFunc m =>
    exact ⟨_, _, rfl, outcome_navigates (.moveFunc m) trivial fun _ => navigates_of_moveFunc? hs⟩
  | findFunc line =>
    exact ⟨_, _, rfl, outcome_navigates (.findFunc line) trivial fun _ => navigates_of_findFunc? hs⟩
  | press key focus =>
    refine ⟨_, _, rfl, outcome_navigates (.press key focus) trivial fun s' hpress => ?_⟩
    obtain ⟨m, -, hmove⟩ := Option.bind_eq_some_iff.1 hpress
    exact navigates_of_move? hs hmove
  | select i =>
    exact ⟨_, _, rfl,
      outcome_picks (.select i) trivial fun _ => TraceStepper.moves_of_select? hs.inner⟩
  | click line =>
    obtain ⟨yes, inner, hok, hclicked⟩ := TraceStepper.click_ok hs.inner line
    refine ⟨.moved yes, _, by rw [apply, click, hok]; rfl, ?_⟩
    cases hclicked with
    | refused memo hsound => exact .missed line memo hsound
    | moved _ hmoves => exact .picked (.click line) inner trivial hmoves

theorem Outcome.sound (hs : s.Sound) {op : Op} {a : Answer} (h : Outcome s op a s') :
    s'.Sound := by
  cases h with
  | refused => exact hs
  | missed _ memo hsound => exact sound_lookup hs hsound
  | navigated _ _ hop hn => exact hn.sound hs
  | picked _ inner hop hmoves => exact sound_follow hs hmoves
  | unchanged => exact hs
  | set _ s₁ _ hp hr => exact hr.sound hs hp

theorem outcome_of_step (hs : s.Sound) {op : Op} {a : Answer} (h : Step s op a s') :
    Outcome s op a s' := by
  obtain ⟨a', s'', hok, hout⟩ := apply_ok hs h.1
  obtain ⟨rfl, rfl⟩ := Prod.mk.inj (Except.ok.inj (hok.symm.trans h.2))
  exact hout

theorem move?_of_step {m : Move} (h : Step s (.move m) (.moved true) s') : s.move? m = some s' := by
  have hsettle : s.settle (s.move? m) = (.moved true, s') := Except.ok.inj h.2
  cases hmove : s.move? m with
  | none =>
    rw [hmove] at hsettle
    cases hsettle
  | some s₁ =>
    rw [hmove] at hsettle
    exact congrArg some (Prod.mk.inj hsettle).2

end Outcome

theorem sound_of_reachable {settings : StepperSettings} {s : SourceStepper}
    (h : Reachable settings s) : s.Sound := by
  induction h with
  | refl => exact sound_new settings
  | tail _ hstep ih =>
    obtain ⟨op, a, hstep⟩ := hstep
    exact (outcome_of_step ih hstep).sound ih

/-- **The source lines of a reachable stepper.** -/
theorem source_lines_of_reachable {settings : StepperSettings} {s : SourceStepper}
    (h : Reachable settings s) :
    (∀ t m i, s.enabled = true → s.inner.trace = some t → s.mapping = some m →
      s.instructions = some i →
        s.found.entry = some (⟨t.id, m.id, i.id, s.primaryFile⟩, s.stops) ∧
        condense t.value m.value i.value s.primaryFile = .ok s.stops) ∧
    (s.enabled = false ∨ s.inner.trace = none ∨ s.mapping = none ∨ s.instructions = none →
      s.found.entry = none ∧ s.stops = []) ∧
    (s.stops ≠ [] → s.cursor < s.stops.length) ∧ (s.stops = [] → s.cursor = 0) ∧
    (∀ stop ∈ s.stops, stop.stepIndex < s.total) ∧
    (s.total ≠ 0 → s.selected < s.total) ∧ (s.total = 0 → s.selected = 0) ∧
    ∀ op, op.Admissible s → ∃ a s', s.apply op = .ok (a, s') := by
  have hs := sound_of_reachable h
  refine ⟨fun t m i he ht hm hi => ?_, fun hmissing => ?_, hs.cursor_lt, hs.cursor_zero,
    hs.stops_spec.1, hs.inner.selected_lt, hs.inner.selected_zero, fun op hop => ?_⟩
  · have hholds : s.Holds t m i := ⟨he, ht, hm, hi⟩
    obtain ⟨stops, hentry⟩ := hs.found_of_holds t m i hholds
    obtain ⟨t', m', i', hholds', -, hcondense⟩ := hs.holds_of_found _ _ hentry
    obtain ⟨rfl, rfl, rfl⟩ := hholds.unique hholds'
    rw [stops_of_entry hentry]
    exact ⟨hentry, hcondense⟩
  · have hentry : s.found.entry = none := by
      cases hentry : s.found.entry with
      | none => rfl
      | some e =>
        obtain ⟨t, m, i, ⟨he, ht, hm, hi⟩, -⟩ := hs.holds_of_found e.1 e.2 hentry
        simp [he, ht, hm, hi] at hmissing
    exact ⟨hentry, stops_of_entry_none hentry⟩
  · obtain ⟨a, s', hok, -⟩ := apply_ok hs hop
    exact ⟨a, s', hok⟩

/-! ## A loop over two source lines -/

def loopTrace : Shared Trace where
  id := 0
  value := ⟨[(Step.of "PUSHINT" 18).withLine 9, (Step.of "PUSHINT" 18).withLine 19,
    (Step.of "PUSHINT" 18).withLine 9, (Step.of "PUSHINT" 18).withLine 19]⟩

def loopMapping : Shared FuncMapping where
  id := 0
  value := SortedMap.ofList [(1, .ofLine "main.tolk" 3), (2, .ofLine "main.tolk" 7)]

def loopSections : Shared SectionInstructions where
  id := 0
  value := SortedMap.ofList [(1, [.atLine "PUSHINT" 9]), (2, [.atLine "PUSHINT" 19])]

theorem numbered_loopTrace : loopTrace.value.Numbered := by
  unfold Trace.Numbered
  decide

theorem numbered_loopSections : loopSections.value.Numbered := by
  unfold SectionInstructions.Numbered
  decide

/-- Source stepping over the loop, just turned on. -/
def loopStepper : SourceStepper where
  inner := ⟨some loopTrace, 2, none, defaultResetMs, Memo.empty⟩
  enabled := true
  primaryFile := defaultSourceFile
  mapping := some loopMapping
  instructions := some loopSections
  found := ⟨some (⟨0, 0, 0, defaultSourceFile⟩, [⟨3, 2⟩, ⟨7, 3⟩])⟩
  cursor := 0

/-- A new stepper with all inputs set, and source stepping still off. -/
def loaded (settings : StepperSettings) (t : Shared Trace) (m : Shared FuncMapping)
    (i : Shared SectionInstructions) : SourceStepper :=
  { new settings with
    inner := { (new settings).inner with trace := some t }
    mapping := some m
    instructions := some i }

theorem admissible_setTrace {t : Shared Trace} (ht : t.value.Numbered) (s : SourceStepper) :
    (Op.setTrace (some t)).Admissible s := by
  rintro t' ⟨⟩
  exact ht

theorem admissible_setDebugInfo {s : SourceStepper} {m : Shared FuncMapping}
    {i : Shared SectionInstructions} (hi : i.value.Numbered)
    (hmapping : ∀ m', s.mapping = some m' → m' = m) (hinstructions : s.instructions = none) :
    (Op.setDebugInfo (some m) (some i)).Admissible s := by
  refine ⟨?_, ?_, by rw [hinstructions]; nofun⟩
  · rintro i' ⟨⟩
    exact hi
  · rintro m' m'' hm' ⟨⟩ -
    rw [hmapping m' hm']

theorem reachable_loaded (settings : StepperSettings) {t : Shared Trace} (m : Shared FuncMapping)
    {i : Shared SectionInstructions} (ht : t.value.Numbered) (hi : i.value.Numbered) :
    Reachable settings (loaded settings t m i) := by
  let s : SourceStepper :=
    { new settings with inner := { (new settings).inner with trace := some t } }
  have htrace : Step (new settings) (.setTrace (some t)) .nothing s :=
    ⟨admissible_setTrace ht _, rfl⟩
  have hdebug : Step s (.setDebugInfo (some m) (some i)) .nothing (loaded settings t m i) :=
    ⟨admissible_setDebugInfo hi nofun rfl, rfl⟩
  exact (Relation.ReflTransGen.single ⟨_, _, htrace⟩).tail ⟨_, _, hdebug⟩

theorem reachable_loop : Reachable {} loopStepper := by
  have henabled : Step (loaded {} loopTrace loopMapping loopSections) (.setEnabled true) .nothing
      loopStepper := ⟨trivial, rfl⟩
  exact (reachable_loaded {} loopMapping numbered_loopTrace numbered_loopSections).tail
    ⟨_, _, henabled⟩

theorem source_lines_of_reachable_loop : Reachable {} loopStepper ∧
    loopStepper.stops = [⟨3, 2⟩, ⟨7, 3⟩] ∧
    condense loopTrace.value loopMapping.value loopSections.value "main.tolk" =
      .ok loopStepper.stops ∧
    loopStepper.cursor < loopStepper.stops.length ∧ loopStepper.selected < loopStepper.total := by
  obtain ⟨hfresh, -, hcursor, -, -, hselected, -⟩ := source_lines_of_reachable reachable_loop
  obtain ⟨-, hcondense⟩ := hfresh loopTrace loopMapping loopSections rfl rfl rfl rfl
  exact ⟨reachable_loop, rfl, hcondense, hcursor (List.cons_ne_nil _ _), hselected (by decide)⟩

end TvmDebug.SourceStepper
