import TvmDebug.Proofs.Stepper.Trace
/-! # Every run of a trace stepper keeps to the trace held

An operation on traces with numbered lines cannot fail; it is refused, moves the cursor, looks up a
line or takes a trace (`TraceStepper.Outcome`), and in each case leaves the cursor on a step of the
trace held and the line index that of this trace. By induction so does every run, whatever traces
replace each other on the way (`TraceStepper.run_keeps_to_trace`).

Positions are natural numbers, whose subtraction stops at zero; `Move.Leads` says without it where a
move goes, so that no move ever gets there. -/
set_option autoImplicit false

namespace TvmDebug

/-! ## Moves without subtraction -/

/-- The move leads from position `i` of `n` to position `k`. -/
def Move.Leads (n i k : Nat) : Move → Prop
  | .prev => k + 1 = i
  | .next => k = i + 1 ∧ k < n
  | .first => k = 0 ∧ k < i
  | .last => k + 1 = n ∧ i < k

theorem Move.leads_of_target? {m : Move} {n i k : Nat} (h : m.target? n i = some k) :
    m.Leads n i k := by
  cases m
  all_goals
    obtain ⟨hcan, hk⟩ := Option.ite_none_right_eq_some.1 h
    have hk := Option.some.inj hk
    unfold Leads
    omega

/-! ## Inputs by identity -/

theorem sameInput_self {α : Type} (input : Option (Shared α)) : sameInput input input = true := by
  cases input with
  | none => rfl
  | some x => exact beq_self_eq_true x.id

namespace TraceStepper

variable {s s' : TraceStepper} {op : TraceStepper.Op} {a : Answer}

/-! ## Operations -/

namespace Op

/-- Moves the cursor or is refused. -/
def Navigates : Op → Prop
  | .move _ | .select _ | .click _ | .press _ _ => True
  | .setTrace _ | .stepsAt _ => False

/-- A trace that is given has numbered lines. -/
def Admissible : Op → Prop
  | .setTrace trace => ∀ t, trace = some t → t.value.Numbered
  | _ => True

/-- The trace given last, when `last` was before. -/
def given (last : Option (Shared Trace)) : Op → Option (Shared Trace)
  | .setTrace trace => trace
  | _ => last

end Op

/-- The trace that the last call of its kind gave; none without such a call. -/
def given (ops : List Op) : Option (Shared Trace) := ops.foldl Op.given none

/-- The answer and the stepper after an operation. -/
inductive Outcome (s : TraceStepper) : Op → Answer → TraceStepper → Prop
  | refused (op : Op) (hop : op.Navigates) : Outcome s op (.moved false) s
  | moved (op : Op) (s' : TraceStepper) (hop : op.Navigates) (h : s.Moves s') :
      Outcome s op (.moved true) s'
  | missed (line : UInt32) (memo : Memo Nat LineIndex)
      (h : ({ s with index := memo } : TraceStepper).Sound) :
      Outcome s (.click line) (.moved false) { s with index := memo }
  | looked (line : UInt32) (positions : List Nat) (memo : Memo Nat LineIndex)
      (h : ({ s with index := memo } : TraceStepper).Sound) :
      Outcome s (.stepsAt line) (.steps positions) { s with index := memo }
  | set (trace : Option (Shared Trace)) (h : ∀ t, trace = some t → t.value.Numbered) :
      Outcome s (.setTrace trace) .nothing (s.setTrace trace)

theorem outcome_navigates (op : Op) (hop : op.Navigates) {moved : Option TraceStepper}
    (h : ∀ s', moved = some s' → s.Moves s') :
    Outcome s op (s.settle moved).1 (s.settle moved).2 := by
  cases moved with
  | none => exact .refused op hop
  | some s' => exact .moved op s' hop (h s' rfl)

/-- An operation on traces with numbered lines cannot fail. -/
theorem apply_ok (hs : s.Sound) (hop : op.Admissible) :
    ∃ a s', s.apply op = .ok (a, s') ∧ Outcome s op a s' := by
  cases op with
  | setTrace trace => exact ⟨_, _, rfl, .set trace hop⟩
  | move m => exact ⟨_, _, rfl, outcome_navigates (.move m) trivial fun _ => moves_of_move? hs⟩
  | select i =>
    exact ⟨_, _, rfl, outcome_navigates (.select i) trivial fun _ => moves_of_select? hs⟩
  | click line =>
    obtain ⟨yes, s', hok, hclicked⟩ := click_ok hs line
    refine ⟨.moved yes, s', by rw [apply, hok]; rfl, ?_⟩
    cases hclicked with
    | refused memo hsound => exact .missed line memo hsound
    | moved _ hmoves => exact .moved (.click line) s' trivial hmoves
  | stepsAt line =>
    obtain ⟨positions, memo, hok, hsound, -⟩ := stepsAt_ok hs line
    refine ⟨_, _, ?_, .looked line positions memo hsound⟩
    rw [apply, hok]
    rfl
  | press key focus =>
    refine ⟨_, _, rfl, outcome_navigates (.press key focus) trivial fun s' hpress => ?_⟩
    obtain ⟨m, -, hmove⟩ := Option.bind_eq_some_iff.1 hpress
    exact moves_of_move? hs hmove

theorem Outcome.sound (hs : s.Sound) (h : Outcome s op a s') : s'.Sound := by
  cases h with
  | refused => exact hs
  | moved _ _ hop hmoves => exact hmoves.sound
  | missed line memo hsound => exact hsound
  | looked line positions memo hsound => exact hsound
  | set trace htrace => exact sound_setTrace hs htrace

/-- The trace held is the one given last, taken by identity. -/
theorem Outcome.holds_given (h : Outcome s op a s') {last : Option (Shared Trace)}
    (hlast : sameInput s.trace last = true) : sameInput s'.trace (op.given last) = true := by
  have hkept : op.Navigates → op.given last = last := by
    intro hop
    cases op with
    | setTrace trace => exact hop.elim
    | _ => rfl
  cases h with
  | refused _ hop => rwa [hkept hop]
  | moved _ _ hop hmoves => rwa [hkept hop, hmoves.trace]
  | missed line memo hsound => exact hlast
  | looked line positions memo hsound => exact hlast
  | set trace htrace =>
    show sameInput (s.setTrace trace).trace trace = true
    unfold setTrace
    split
    · assumption
    · exact sameInput_self trace

theorem outcome_of_apply (hs : s.Sound) (hop : op.Admissible) (h : s.apply op = .ok (a, s')) :
    Outcome s op a s' := by
  obtain ⟨a', s'', hok, hout⟩ := apply_ok hs hop
  obtain ⟨rfl, rfl⟩ := Prod.mk.inj (Except.ok.inj (hok.symm.trans h))
  exact hout

theorem target?_of_move (hs : s.Sound) {m : Move} (h : s.apply (.move m) = .ok (.moved true, s')) :
    m.target? s.total s.selected = some s'.selected := by
  have hmove : s.move? m = some s' := eq_some_of_settle (Except.ok.inj h)
  rw [move?_eq hs] at hmove
  obtain ⟨i, htarget, rfl⟩ := Option.map_eq_some_iff.1 hmove
  exact htarget

/-- A line is looked up in the index of the trace held. -/
theorem stepsAt_index (hs : s.Sound) (line : UInt32) :
    ∃ positions s', s.apply (.stepsAt line) = .ok (.steps positions, s') ∧
      (s.trace = none → positions = []) ∧
      ∀ t, s.trace = some t → ∃ index, lineIndex t.value.steps = .ok index ∧
        positions = index.positions line ∧ s'.index.entry = some (t.id, index) := by
  obtain ⟨positions, memo, hok, hsound, -⟩ := stepsAt_ok hs line
  refine ⟨positions, { s with index := memo }, by rw [apply, hok]; rfl, fun hnone => ?_,
    fun t ht => ?_⟩
  · rw [stepsAt_of_none hnone] at hok
    exact (Prod.mk.inj (Except.ok.inj hok)).1.symm
  · rw [stepsAt_of_some ht] at hok
    obtain ⟨⟨index, memo'⟩, hmemo, hlooked⟩ := exists_of_map_eq_ok hok
    obtain ⟨rfl, hstepper⟩ := Prod.mk.inj hlooked
    obtain rfl : memo' = memo := congrArg TraceStepper.index hstepper
    have hentry := Memo.get?_eq_some_iff.1 (Memo.get?_of_getOrComputeM hmemo)
    obtain ⟨t', ht', -, hindex⟩ := hsound.index_current _ _ hentry
    obtain rfl : t = t' := Option.some.inj (ht.symm.trans ht')
    exact ⟨index, hindex, rfl, hentry⟩

/-! ## Runs -/

theorem run_sound (hs : s.Sound) {ops : List Op} (h : ∀ op ∈ ops, op.Admissible)
    (last : Option (Shared Trace)) (hlast : sameInput s.trace last = true) :
    ∃ s', run s ops = .ok s' ∧ s'.Sound ∧ sameInput s'.trace (ops.foldl Op.given last) = true := by
  induction ops generalizing s last with
  | nil => exact ⟨s, rfl, hs, hlast⟩
  | cons op ops ih =>
    obtain ⟨hop, hops⟩ := List.forall_mem_cons.1 h
    obtain ⟨a, s₁, happly, hout⟩ := apply_ok hs hop
    obtain ⟨s', hrun, hs', hgiven⟩ := ih (hout.sound hs) hops _ (hout.holds_given hlast)
    refine ⟨s', ?_, hs', hgiven⟩
    rw [run, List.foldlM_cons, happly]
    exact hrun

/-- Some operations on traces with numbered lines lead from a new stepper to `s`. -/
def Reachable (settings : StepperSettings) (s : TraceStepper) : Prop :=
  ∃ ops : List Op, (∀ op ∈ ops, op.Admissible) ∧ run (new settings) ops = .ok s

theorem sound_of_reachable {settings : StepperSettings} (h : Reachable settings s) : s.Sound := by
  obtain ⟨ops, hops, hrun⟩ := h
  obtain ⟨s', hrun', hs', -⟩ := run_sound (sound_new settings) hops none rfl
  obtain rfl := Except.ok.inj (hrun.symm.trans hrun')
  exact hs'

/-- **A run keeps to the trace held.** -/
theorem run_keeps_to_trace (settings : StepperSettings) {ops : List Op}
    (h : ∀ op ∈ ops, op.Admissible) :
    ∃ s, run (new settings) ops = .ok s ∧ sameInput s.trace (given ops) = true ∧
      (s.total ≠ 0 → s.selected < s.total) ∧ (s.total = 0 → s.selected = 0) ∧
      (∀ k index, s.index.entry = some (k, index) →
        ∃ t, s.trace = some t ∧ t.id = k ∧ lineIndex t.value.steps = .ok index) ∧
      (∀ line, ∃ positions s', s.apply (.stepsAt line) = .ok (.steps positions, s') ∧
        (s.trace = none → positions = []) ∧
        ∀ t, s.trace = some t → ∃ index, lineIndex t.value.steps = .ok index ∧
          positions = index.positions line ∧ s'.index.entry = some (t.id, index)) ∧
      ∀ m s', s.apply (.move m) = .ok (.moved true, s') →
        m.Leads s.total s.selected s'.selected := by
  obtain ⟨s, hrun, hs, hgiven⟩ := run_sound (sound_new settings) h none rfl
  exact ⟨s, hrun, hgiven, hs.selected_lt, hs.selected_zero, hs.index_current, stepsAt_index hs,
    fun m s' hmove => Move.leads_of_target? (target?_of_move hs hmove)⟩

/-! ## A trace that gives way to a shorter one -/

def longTrace : Shared Trace where
  id := 0
  value := ⟨[(Step.of "PUSHINT" 18).withLine 9, (Step.of "PUSHINT" 18).withLine 19,
    (Step.of "PUSHINT" 18).withLine 9]⟩

def shortTrace : Shared Trace where
  id := 1
  value := ⟨[(Step.of "PUSHINT" 18).withLine 19]⟩

theorem numbered_longTrace : longTrace.value.Numbered := by
  unfold Trace.Numbered
  decide

/-- A line of the first trace is clicked through before the second trace comes. -/
def replacedRun : List Op :=
  [.setTrace (some longTrace), .click 10, .click 10, .setTrace (some shortTrace), .stepsAt 10]

theorem admissible_replacedRun : ∀ op ∈ replacedRun, op.Admissible := by
  have hshort : shortTrace.value.Numbered := by
    unfold Trace.Numbered
    decide
  simpa [replacedRun, Op.Admissible] using ⟨numbered_longTrace, hshort⟩

/-- The cursor is back at the first step, and lines are looked up in the second trace. -/
theorem run_keeps_to_trace_replaced : (∀ op ∈ replacedRun, op.Admissible) ∧
    ∃ s, run (new {}) replacedRun = .ok s ∧ s.selected < s.total ∧
      ∃ s', s.apply (.stepsAt 20) = .ok (.steps [0], s') := by
  obtain ⟨s, hrun, -, hselected, -, -, hlooked, -⟩ := run_keeps_to_trace {} admissible_replacedRun
  obtain rfl : (⟨some shortTrace, 0, none, defaultResetMs,
      ⟨some (1, SortedMap.ofList [(20, [0])])⟩⟩ : TraceStepper) = s :=
    Except.ok.inj (Eq.trans rfl hrun)
  obtain ⟨positions, s', happly, -, hpositions⟩ := hlooked 20
  obtain ⟨index, hindex, rfl, -⟩ := hpositions shortTrace rfl
  obtain rfl : SortedMap.ofList [(20, [0])] = index := Except.ok.inj (Eq.trans rfl hindex)
  exact ⟨admissible_replacedRun, _, hrun, hselected (by decide), s', happly⟩

end TraceStepper

end TvmDebug
