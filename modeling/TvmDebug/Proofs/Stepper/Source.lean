import TvmDebug.Proofs.Stepper.Condense
import TvmDebug.Proofs.Stepper.Trace
import TvmDebug.Stepper.Source
/-! # The cursor over source lines and the cursor over steps

`SourceStepper.Sound`: the memo holds the stops of the inputs held and nothing else, both cursors
are in bounds, and the selected step is that of the stop under the cursor or that of no stop.

What moves a cursor keeps this: a move over source lines goes by the rule for any cursor
(`SourceStepper.moveFunc?_eq`) and puts both cursors on one stop (`SourceStepper.Navigates.stop`), a
move over steps happens only where there are no stops (`SourceStepper.Navigates.walk`), and a picked
step takes the cursor along if a stop stands for it (`sound_follow`). -/
set_option autoImplicit false

namespace TvmDebug.SourceStepper

/-! ## Sound steppers -/

/-- Source stepping is on and these are its inputs. -/
structure Holds (s : SourceStepper) (t : Shared Trace) (m : Shared FuncMapping)
    (i : Shared SectionInstructions) : Prop where
  enabled : s.enabled = true
  trace : s.inner.trace = some t
  mapping : s.mapping = some m
  instructions : s.instructions = some i

def keyOf (s : SourceStepper) (t : Shared Trace) (m : Shared FuncMapping)
    (i : Shared SectionInstructions) : SourceKey :=
  ⟨t.id, m.id, i.id, s.primaryFile⟩

/-- The selected step is that of the stop under the cursor. -/
def AtStop (s : SourceStepper) : Prop :=
  ∃ stop, s.stops[s.cursor]? = some stop ∧ stop.stepIndex = s.selected

/-- The selected step is that of no stop. -/
def OffStops (s : SourceStepper) : Prop := ∀ stop ∈ s.stops, stop.stepIndex ≠ s.selected

/-- The memo holds the stops of the inputs held and nothing else. -/
structure Cached (s : SourceStepper) : Prop where
  inner : s.inner.Sound
  numbered : ∀ i, s.instructions = some i → i.value.Numbered
  found_of_holds : ∀ t m i, s.Holds t m i → ∃ stops, s.found.entry = some (s.keyOf t m i, stops)
  holds_of_found : ∀ key stops, s.found.entry = some (key, stops) →
    ∃ t m i, s.Holds t m i ∧ key = s.keyOf t m i ∧
      condense t.value m.value i.value s.primaryFile = .ok stops

/-- Beside that, the cursor over source lines is in bounds and agrees with the selected step. -/
structure Sound (s : SourceStepper) : Prop extends Cached s where
  cursor_lt : s.stops ≠ [] → s.cursor < s.stops.length
  cursor_zero : s.stops = [] → s.cursor = 0
  aligned : s.AtStop ∨ s.OffStops

variable {s s' : SourceStepper}

theorem inputs?_eq_some_iff {t : Shared Trace} {m : Shared FuncMapping}
    {i : Shared SectionInstructions} : s.inputs? = some (t, m, i) ↔ s.Holds t m i := by
  constructor
  · intro h
    obtain ⟨t', ht, h⟩ := Option.bind_eq_some_iff.1 h
    obtain ⟨m', hm, h⟩ := Option.bind_eq_some_iff.1 h
    obtain ⟨i', hi, h⟩ := Option.bind_eq_some_iff.1 h
    obtain ⟨henabled, h⟩ := Option.ite_none_right_eq_some.1 h
    obtain ⟨rfl, rfl, rfl⟩ : t' = t ∧ m' = m ∧ i' = i := by simpa using h
    exact ⟨henabled, ht, hm, hi⟩
  · rintro ⟨henabled, ht, hm, hi⟩
    simp [inputs?, henabled, ht, hm, hi]

theorem stops_of_entry {key : SourceKey} {stops : List SourceStop}
    (h : s.found.entry = some (key, stops)) : s.stops = stops := by
  rw [SourceStepper.stops, Memo.current, h]
  rfl

theorem stops_of_entry_none (h : s.found.entry = none) : s.stops = [] := by
  rw [SourceStepper.stops, Memo.current, h]
  rfl

theorem offStops_of_nil (hnil : s.stops = []) : s.OffStops := by
  intro stop hstop
  rw [hnil] at hstop
  exact absurd hstop List.not_mem_nil

theorem sound_new (settings : StepperSettings) : (new settings).Sound where
  inner := TraceStepper.sound_new settings
  numbered := nofun
  found_of_holds := fun _ _ _ h => nomatch h.enabled
  holds_of_found := nofun
  cursor_lt := fun h => absurd rfl h
  cursor_zero := fun _ => rfl
  aligned := .inr nofun

theorem Cached.stops_spec (h : s.Cached) : (∀ stop ∈ s.stops, stop.stepIndex < s.total) ∧
    s.stops.Pairwise fun stop next => stop.stepIndex ≠ next.stepIndex := by
  cases hentry : s.found.entry with
  | none =>
    rw [stops_of_entry_none hentry]
    exact ⟨nofun, List.Pairwise.nil⟩
  | some e =>
    obtain ⟨t, m, i, hholds, -, hcondense⟩ := h.holds_of_found e.1 e.2 hentry
    have hsteps : s.inner.steps = t.value.steps := by rw [TraceStepper.steps, hholds.trace]
    rw [stops_of_entry hentry, SourceStepper.total, TraceStepper.total, hsteps]
    exact condense_stops (h.inner.numbered t hholds.trace) hcondense

theorem Cached.stops_eq_nil (h : s.Cached) (hmode : s.isSourceMode = false) : s.stops = [] := by
  cases hentry : s.found.entry with
  | none => exact stops_of_entry_none hentry
  | some e =>
    obtain ⟨t, m, i, hholds, -⟩ := h.holds_of_found e.1 e.2 hentry
    simpa [isSourceMode, hholds.enabled] using hmode

/-- No stop but the one under the cursor stands for the selected step. -/
theorem Sound.eq_cursor (h : s.Sound) {k : Nat} {stop : SourceStop} (hk : s.stops[k]? = some stop)
    (hstop : stop.stepIndex = s.selected) : k = s.cursor := by
  rcases h.aligned with ⟨stop', hk', hstop'⟩ | hoff
  · obtain ⟨hlt, hget⟩ := List.getElem?_eq_some_iff.1 hk
    obtain ⟨hlt', hget'⟩ := List.getElem?_eq_some_iff.1 hk'
    have hpair := List.pairwise_iff_getElem.1 h.stops_spec.2
    have hsame : stop.stepIndex = stop'.stepIndex := hstop.trans hstop'.symm
    rcases Nat.lt_trichotomy k s.cursor with hc | hc | hc
    · exact absurd (by rw [hget, hget', hsame]) (hpair k s.cursor hlt hlt' hc)
    · exact hc
    · exact absurd (by rw [hget, hget', hsame]) (hpair s.cursor k hlt' hlt hc)
  · exact absurd hstop (hoff stop (List.mem_of_getElem? hk))

theorem Cached.isSourceMode_iff (h : s.Cached) : s.isSourceMode = true ↔ s.stops ≠ [] := by
  constructor
  · intro hmode hnil
    simp [isSourceMode, hnil] at hmode
  · intro hne
    cases hmode : s.isSourceMode with
    | true => rfl
    | false => exact absurd (h.stops_eq_nil hmode) hne

/-- Any cursors on the same inputs are sound if they are in bounds and agree. -/
theorem Cached.update (h : s.Cached) {inner : TraceStepper} (htrace : inner.trace = s.inner.trace)
    (hinner : inner.Sound) {k : Nat} (hlt : s.stops ≠ [] → k < s.stops.length)
    (hzero : s.stops = [] → k = 0)
    (haligned : (∃ stop, s.stops[k]? = some stop ∧ stop.stepIndex = inner.selected) ∨
      ∀ stop ∈ s.stops, stop.stepIndex ≠ inner.selected) :
    ({ s with inner := inner, cursor := k } : SourceStepper).Sound where
  inner := hinner
  numbered := h.numbered
  found_of_holds := fun t m i hh =>
    h.found_of_holds t m i ⟨hh.enabled, htrace ▸ hh.trace, hh.mapping, hh.instructions⟩
  holds_of_found := fun key stops hentry => by
    obtain ⟨t, m, i, hh, hkey, hcondense⟩ := h.holds_of_found key stops hentry
    exact ⟨t, m, i, ⟨hh.enabled, htrace.trans hh.trace, hh.mapping, hh.instructions⟩, hkey,
      hcondense⟩
  cursor_lt := hlt
  cursor_zero := hzero
  aligned := haligned

/-! ## Moves over source lines -/

theorem stops_sync (s : SourceStepper) : s.sync.stops = s.stops := by
  unfold sync
  split <;> rfl

theorem sync_of_stops_nil (hnil : s.stops = []) : s.sync = s := by
  rw [sync, hnil]
  rfl

/-- The stepper with both cursors on a stop. -/
def onStop (s : SourceStepper) (k : Nat) (stop : SourceStop) (mark : Option Transition) :
    SourceStepper :=
  { s with inner := { s.inner with selected := stop.stepIndex, lastMove := mark }, cursor := k }

theorem sync_eq {stop : SourceStop} (hstop : s.stops[s.cursor]? = some stop)
    (hlt : stop.stepIndex < s.inner.total) :
    s.sync = s.onStop s.cursor stop s.inner.lastMove := by
  unfold sync
  rw [hstop]
  simp only [TraceStepper.select?_of_lt hlt]
  rfl

theorem sound_onStop (h : s.Cached) {k : Nat} {stop : SourceStop} (hstop : s.stops[k]? = some stop)
    (mark : Option Transition) : (s.onStop k stop mark).Sound := by
  obtain ⟨hlt, -⟩ := List.getElem?_eq_some_iff.1 hstop
  have hsel := h.stops_spec.1 stop (List.mem_of_getElem? hstop)
  obtain ⟨htrace, -, hinner⟩ := TraceStepper.moves_selected h.inner hsel mark
  refine h.update htrace hinner (fun _ => hlt) (fun hnil => ?_) (.inl ⟨stop, hstop, rfl⟩)
  simp [hnil] at hlt

theorem atStop_onStop {k : Nat} {stop : SourceStop} (hstop : s.stops[k]? = some stop)
    (mark : Option Transition) : (s.onStop k stop mark).AtStop :=
  ⟨stop, hstop, rfl⟩

/-- What a move makes of a stepper: both cursors stand on a stop, or there are no stops and the
cursor over steps moves. -/
inductive Navigates (s : SourceStepper) : SourceStepper → Prop
  | stop (k : Nat) (stop : SourceStop) (mark : Transition) (hstop : s.stops[k]? = some stop) :
      Navigates s (s.onStop k stop (some mark))
  | walk (inner : TraceStepper) (hnil : s.stops = []) (hmoves : s.inner.Moves inner) :
      Navigates s (s.withInner inner)

theorem Navigates.sound (h : s.Sound) (hn : s.Navigates s') : s'.Sound := by
  cases hn with
  | stop k stop mark hstop => exact sound_onStop h.toCached hstop (some mark)
  | walk inner hnil hmoves =>
    have hnil' : (s.withInner inner).stops = [] := hnil
    exact h.update hmoves.trace hmoves.sound (fun hne => absurd hnil hne) h.cursor_zero
      (.inr (offStops_of_nil hnil'))

theorem Navigates.found (h : s.Navigates s') : s'.found = s.found := by
  cases h with
  | stop => rfl
  | walk => rfl

theorem Navigates.stops (h : s.Navigates s') : s'.stops = s.stops :=
  congrArg (fun found => found.current.getD []) h.found

theorem Navigates.isSourceMode (h : s.Navigates s') : s'.isSourceMode = s.isSourceMode := by
  cases h <;> rfl

theorem Navigates.steps (h : s.Navigates s') : s'.inner.steps = s.inner.steps := by
  cases h with
  | stop => rfl
  | walk inner hnil hmoves =>
    show inner.steps = s.inner.steps
    rw [TraceStepper.steps, hmoves.trace]
    rfl

theorem sync_cursor (h : s.Cached) {k : Nat} {stop : SourceStop} (hstop : s.stops[k]? = some stop) :
    ({ s with cursor := k } : SourceStepper).sync = s.onStop k stop s.inner.lastMove :=
  sync_eq (s := { s with cursor := k }) hstop (h.stops_spec.1 stop (List.mem_of_getElem? hstop))

theorem Sound.cursor_pos (h : s.Sound) (hpos : 0 < s.cursor) : s.cursor < s.stops.length :=
  h.cursor_lt fun hnil => Nat.ne_of_gt hpos (h.cursor_zero hnil)

theorem moveTo?_eq_none {k : Nat} (h : ¬ (k < s.stops.length ∧ k ≠ s.cursor)) (t : Transition) :
    s.moveTo? k t = none :=
  if_neg h

theorem moveTo?_eq_some (h : s.Cached) {k : Nat} {stop : SourceStop} (hk : k ≠ s.cursor)
    (hstop : s.stops[k]? = some stop) (t : Transition) :
    s.moveTo? k t = some (s.onStop k stop (some t)) := by
  obtain ⟨hlt, -⟩ := List.getElem?_eq_some_iff.1 hstop
  rw [moveTo?, if_pos ⟨hlt, hk⟩]
  simp only [sync_cursor h hstop]
  rfl

theorem moveFunc?_eq_bind (h : s.Sound) (m : Move) :
    s.moveFunc? m =
      (m.target? s.stops.length s.cursor).bind fun k => s.moveTo? k .button := by
  cases m with
  | prev =>
    rw [moveFunc?, Move.target?]
    split <;> rfl
  | next =>
    by_cases hcan : s.cursor + 1 < s.stops.length
    · simp [moveFunc?, Move.target?, hcan]
    · have hnone := moveTo?_eq_none (s := s) (k := s.cursor + 1) (by omega) .button
      simp [moveFunc?, Move.target?, hcan, hnone]
  | first =>
    by_cases hcan : 0 < s.cursor
    · simp [moveFunc?, Move.target?, hcan]
    · have hnone := moveTo?_eq_none (s := s) (k := 0) (by omega) .button
      simp [moveFunc?, Move.target?, hcan, hnone]
  | last =>
    have hpos := h.cursor_pos
    by_cases hcan : s.cursor + 1 < s.stops.length
    · have hlength : 0 < s.stops.length := by omega
      simp [moveFunc?, Move.target?, hcan, hlength]
    · have hnone := moveTo?_eq_none (s := s) (k := s.stops.length - 1) (by omega) .button
      simp [moveFunc?, Move.target?, hcan, hnone]

/-- The cursor over source lines goes where the rule says, and the selected step with it. -/
theorem moveFunc?_eq (h : s.Sound) (m : Move) :
    s.moveFunc? m = (m.target? s.stops.length s.cursor).bind fun k =>
      (s.stops[k]?).map fun stop => s.onStop k stop (some .button) := by
  rw [moveFunc?_eq_bind h]
  cases htarget : m.target? s.stops.length s.cursor with
  | none => rfl
  | some k =>
    obtain ⟨hlt, hk⟩ := Move.target?_spec h.cursor_pos htarget
    have hstop := List.getElem?_eq_getElem hlt
    rw [Option.bind_some, Option.bind_some, moveTo?_eq_some h.toCached hk hstop, hstop]
    rfl

theorem navigates_of_moveFunc? (h : s.Sound) {m : Move} (hmove : s.moveFunc? m = some s') :
    s.Navigates s' := by
  rw [moveFunc?_eq h] at hmove
  obtain ⟨k, -, hmove⟩ := Option.bind_eq_some_iff.1 hmove
  obtain ⟨stop, hstop, rfl⟩ := Option.map_eq_some_iff.1 hmove
  exact .stop k stop .button hstop

/-- A source line takes the cursor to its stop, and the selected step with it. -/
theorem findFunc?_eq (h : s.Cached) (line : UInt32) :
    s.findFunc? line = (s.stops.findIdx? fun stop => stop.line == line).bind fun k =>
      (s.stops[k]?).map fun stop => s.onStop k stop (some .click) := by
  cases hk : s.stops.findIdx? fun stop => stop.line == line with
  | none =>
    rw [findFunc?, hk]
    rfl
  | some k =>
    obtain ⟨hlt, -⟩ := List.findIdx?_eq_some_iff_getElem.1 hk
    have hstop := List.getElem?_eq_getElem hlt
    rw [findFunc?, hk, Option.bind_some, hstop]
    simp only [Option.map_some, sync_cursor h hstop]
    rfl

theorem navigates_of_findFunc? (h : s.Sound) {line : UInt32}
    (hfind : s.findFunc? line = some s') : s.Navigates s' := by
  rw [findFunc?_eq h.toCached] at hfind
  obtain ⟨k, -, hfind⟩ := Option.bind_eq_some_iff.1 hfind
  obtain ⟨stop, hstop, rfl⟩ := Option.map_eq_some_iff.1 hfind
  exact .stop k stop .click hstop

theorem navigates_of_move? (h : s.Sound) {m : Move} (hmove : s.move? m = some s') :
    s.Navigates s' := by
  unfold move? at hmove
  split at hmove
  · exact navigates_of_moveFunc? h hmove
  · next hmode =>
    obtain ⟨inner, hinner, rfl⟩ := Option.map_eq_some_iff.1 hmove
    exact .walk inner (h.stops_eq_nil (Bool.eq_false_iff.2 hmode))
      (TraceStepper.moves_of_move? h.inner hinner)

/-! ## Picked steps -/

theorem inner_follow (s : SourceStepper) : s.follow.inner = s.inner := by
  unfold follow
  split <;> rfl

/-- The cursor goes to the stop of a picked step, and stays where it is if there is none. -/
theorem sound_follow (h : s.Sound) {inner : TraceStepper} (hmoves : s.inner.Moves inner) :
    (s.withInner inner).follow.Sound := by
  unfold follow
  split
  · next k hk =>
    obtain ⟨hlt, hsel, -⟩ := List.findIdx?_eq_some_iff_getElem.1 hk
    refine h.update hmoves.trace hmoves.sound (fun _ => hlt) (fun hnil => ?_)
      (.inl ⟨_, List.getElem?_eq_getElem hlt, beq_iff_eq.1 hsel⟩)
    have hlen : (s.withInner inner).stops.length = 0 := List.length_eq_zero_iff.2 hnil
    omega
  · next hnone =>
    refine h.update hmoves.trace hmoves.sound h.cursor_lt h.cursor_zero (.inr fun stop hstop => ?_)
    exact beq_eq_false_iff_ne.1 (List.findIdx?_eq_none_iff.1 hnone stop hstop)

/-- A click of a source stepper is one of the trace stepper inside. -/
theorem click_of_apply {line : UInt32} {a : Answer} (h : s.apply (.click line) = .ok (a, s')) :
    ∃ yes inner, s.inner.click line = .ok (yes, inner) ∧ a = .moved yes ∧ s'.inner = inner := by
  obtain ⟨⟨yes, s₁⟩, hclick, hanswer⟩ := exists_of_map_eq_ok h
  obtain ⟨⟨yes', inner⟩, hinner, hs₁⟩ := exists_of_map_eq_ok hclick
  obtain ⟨rfl, rfl⟩ := Prod.mk.inj hs₁
  obtain ⟨rfl, rfl⟩ := Prod.mk.inj hanswer
  refine ⟨yes', inner, hinner, rfl, ?_⟩
  cases yes' with
  | false => rfl
  | true => exact inner_follow (s.withInner inner)

/-- A line that was only looked up moves neither cursor. -/
theorem sound_lookup (h : s.Sound) {memo : Memo Nat LineIndex}
    (hmemo : ({ s.inner with index := memo } : TraceStepper).Sound) :
    (s.withInner { s.inner with index := memo }).Sound := by
  have htrace : ({ s.inner with index := memo } : TraceStepper).trace = s.inner.trace := rfl
  exact h.update htrace hmemo h.cursor_lt h.cursor_zero h.aligned

end TvmDebug.SourceStepper
