import TvmDebug.Proofs.Session.Listing
/-! # One sum of gas

The gas that a stepper shows is the sum over the steps before the selected one, so that a step
forward or back changes it by the gas of the step between (`TraceStepper.countsGas`). The listing of
steps adds gas as it goes along and arrives at the same sums (`stepRows_drop`): the total of a row
is the gas shown with the step after it (`gas_is_one_sum`). -/
set_option autoImplicit false

namespace TvmDebug

/-! ## Moves over steps -/

namespace TraceStepper

variable {s s' : TraceStepper}

/-- The gas used is that of the steps before the selected one. A step forward adds that of the step
left, and a step back takes away that of the step entered. -/
structure CountsGas (s : TraceStepper) : Prop where
  used : s.usedGas = gasBefore s.steps s.selected
  next : ∀ s', s.apply (.move .next) = .ok (.moved true, s') →
    ∃ step, s.current = some step ∧ s'.usedGas = s.usedGas + step.gas
  prev : ∀ s', s.apply (.move .prev) = .ok (.moved true, s') →
    ∃ step, s'.current = some step ∧ s'.usedGas = s.usedGas - step.gas ∧
      (s.total ≤ (2 ^ 64 - 1) / 5000 → step.gas ≤ s.usedGas)

theorem countsGas (s : TraceStepper) : s.CountsGas where
  used := rfl
  next := by
    intro s' h
    obtain ⟨hcan, hmove⟩ := Option.ite_none_right_eq_some.1 (eq_some_of_settle (Except.ok.inj h))
    obtain ⟨hlt, hsteps, hselected⟩ := moveTo?_eq_some hmove
    have hat : s.selected < s.steps.length := Nat.lt_of_succ_lt hlt
    have hleft : s.steps[s.selected]? = some s.steps[s.selected] := List.getElem?_eq_getElem hat
    refine ⟨_, hleft, ?_⟩
    rw [usedGas, hsteps, hselected, gasBefore_succ hleft]
    rfl
  prev := by
    intro s' h
    obtain ⟨hcan, hmove⟩ := Option.ite_none_right_eq_some.1 (eq_some_of_settle (Except.ok.inj h))
    obtain ⟨hlt, hsteps, hselected⟩ := moveTo?_eq_some hmove
    have hentered : s.steps[s.selected - 1]? = some s.steps[s.selected - 1] :=
      List.getElem?_eq_getElem hlt
    have hback : s.selected - 1 + 1 = s.selected := by
      have hpos : 0 < s.selected := by simpa [canPrev] using (Bool.and_eq_true_iff.1 hcan).2
      omega
    have hsum := gasBefore_succ hentered
    have hexact := exactGas_take_succ hentered
    rw [hback] at hsum hexact
    refine ⟨s.steps[s.selected - 1], ?_, ?_, fun hfits => ?_⟩
    · rw [current, hsteps, hselected, hentered]
    · rw [usedGas, usedGas, hsteps, hselected, hsum, UInt64.add_sub_cancel]
    · have hused := gasBefore?_eq_some_iff.1 (gasBefore?_of_length_le hfits s.selected)
      rw [UInt64.le_iff_toNat_le, usedGas, hused, hexact]
      exact Nat.le_add_left _ _

end TraceStepper

/-- Any step can be picked, whatever source line is found for it. -/
theorem SourceStepper.select?_of_lt {s : SourceStepper} {i : Nat} (h : i < s.inner.total) :
    ∃ s', s.select? i = some s' ∧ s'.inner = { s.inner with selected := i } := by
  refine ⟨(s.withInner { s.inner with selected := i }).follow, ?_, ?_⟩
  · rw [select?, TraceStepper.select?_of_lt h, Option.map_some]
  · unfold follow
    split <;> rfl

/-! ## The listing of steps -/

/-- From step `i` on, after the gas of the steps before it, each row totals the gas up to its own
step. -/
theorem stepRows_drop {all steps : List Step} {i : Nat} (hdrop : all.drop i = steps)
    (h : ∀ s ∈ steps, s.line ≠ some lastLine) :
    stepRows i (gasBefore all i) steps = Report.ofLines ((steps.zipIdx i).map fun (s, j) =>
      stepText j s (s.line.map (· + 1)) (gasBefore all (j + 1))) := by
  induction steps generalizing i with
  | nil => rfl
  | cons s steps ih =>
    obtain ⟨hs, hsteps⟩ := List.forall_mem_cons.1 h
    have hhead : all[i]? = some s := by rw [← List.head?_drop, hdrop, List.head?_cons]
    have htail : all.drop (i + 1) = steps := by rw [← List.tail_drop, hdrop, List.tail_cons]
    have hline : s.asmLine = .ok (s.line.map (· + 1)) := oneBased?_eq hs
    rw [stepRows, ← gasBefore_succ hhead, hline]
    show Report.after _ (stepRows (i + 1) (gasBefore all (i + 1)) steps) = _
    rw [ih htail hsteps, Report.after_ofLines]
    rfl

theorem Report.ShowsStep.alone {r : Report} {steps : List Step} {i : Nat} {next : List String}
    (h : r.ShowsStep steps i next) : r.ShowsStep steps i [] := by
  obtain ⟨step, asm, rest, hstep, hasm, hr⟩ := h
  refine ⟨step, asm, next ++ rest, hstep, hasm, ?_⟩
  rw [hr, List.append_nil, List.append_assoc]

/-! ## The same sum everywhere -/

section Session
variable {session : Session}

/-- **One sum of gas.** -/
theorem gas_is_one_sum (h : session.Numbered) (choice : SourceChoice) (settings : Settings) :
    (∀ steps, PrefixSums steps) ∧ (∀ s : TraceStepper, s.CountsGas) ∧
    ∃ s₀, openStepper session choice settings = .ok s₀ ∧
      (s₀.isSourceMode = false → session.listSteps choice settings =
        Report.ofLines (session.trace.steps.zipIdx.map fun (s, i) =>
          stepText i s (s.line.map (· + 1)) (gasBefore session.trace.steps (i + 1)))) ∧
      ∀ i, i + 1 < session.trace.steps.length →
        (session.inspect choice (.step (i + 1)) settings).ShowsStep session.trace.steps (i + 1)
          [] := by
  obtain ⟨s₀, hopen, hs₀⟩ := openStepper_ok h choice settings
  have hsteps : s₀.inner.steps = session.trace.steps := hs₀.inputs.steps
  refine ⟨prefixSums, TraceStepper.countsGas, s₀, hopen, fun hmode => ?_, fun i hi => ?_⟩
  · rw [Session.listSteps, hopen, Report.ofLookup, hmode, if_neg Bool.false_ne_true, hsteps]
    exact stepRows_drop rfl h.trace
  · obtain ⟨exit, hinspect⟩ := inspect_eq hopen
    obtain ⟨s, hselect, hinner⟩ := SourceStepper.select?_of_lt (s := s₀) (hsteps ▸ hi)
    have hmove : moveCursor s₀ (.step (i + 1)) = .ok (.ok s) := by rw [moveCursor, hselect]
    have hselected : s.selected = i + 1 := congrArg TraceStepper.selected hinner
    have hkept : s.inner.steps = session.trace.steps := by
      rw [hinner]
      exact hsteps
    have hshown := showStep_showsStep hkept h.trace (by rw [hselected]; exact hi) exit
    rw [hselected] at hshown
    rw [hinspect _ _ hmove]
    exact hshown.alone

end Session

/-- The second step reports as much gas as 64 bits hold, and counts as 26. -/
def unbelievableSession : Session where
  trace := ⟨[(Step.of "PUSHINT" 18).withLine 9,
    (Step.of "CALLDICT" 18446744073709551615).withLine 19, Step.of "RET" 5000]⟩
  vmLog := none
  cells := none
  mapping := none
  instructions := none

theorem gas_is_one_sum_unbelievable : unbelievableSession.Numbered ∧
    gasBefore? unbelievableSession.trace.steps 3 = some 5044 ∧
    unbelievableSession.listSteps ⟨false, none⟩ {} = Report.ofLines
      ["    0  PUSHINT          line    10  gas    18  total 18",
        "    1  CALLDICT         line    20  gas    26  total 44",
        "    2  RET              line     -  gas  5000  total 5044"] ∧
    1 + 1 < unbelievableSession.trace.steps.length ∧
    (unbelievableSession.inspect ⟨false, none⟩ (.step 2) {}).ShowsStep
      unbelievableSession.trace.steps 2 [] := by
  have htrace : unbelievableSession.trace.Numbered := by
    unfold Trace.Numbered
    decide
  have hnumbered : unbelievableSession.Numbered := ⟨htrace, nofun⟩
  obtain ⟨hsums, -, s₀, hopen, hlist, hshown⟩ := gas_is_one_sum hnumbered ⟨false, none⟩ {}
  have hmode : s₀.isSourceMode = false := by
    have hopened : (openStepper unbelievableSession ⟨false, none⟩ {}).map (·.isSourceMode) =
      .ok false := rfl
    rw [hopen] at hopened
    exact Except.ok.inj hopened
  exact ⟨hnumbered, (hsums _).fits (by decide) 3, hlist hmode, by decide, hshown 1 (by decide)⟩

end TvmDebug
