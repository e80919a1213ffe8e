import TvmDebug.Proofs.Gas
import TvmDebug.Proofs.Session.Inspect
/-! # The rows of source lines lead to the steps they name

The listing of a session in source mode prints the stops, one row for each. No two rows have a line
or a step in common, so that the row of a line and the row of its step are found to be the same one:
picking either puts both cursors on that stop (`findFunc?_of_stop`, `select?_of_stop`). What is
shown after that is read off the row (`listing_leads_to_steps`). -/
set_option autoImplicit false

namespace TvmDebug

/-! ## Where a stop stands among all stops -/

theorem findIdx?_of_nodup {α β : Type} [BEq β] [LawfulBEq β] {f : α → β} {xs : List α}
    (h : (xs.map f).Nodup) {k : Nat} {x : α} (hk : xs[k]? = some x) :
    (xs.findIdx? fun y => f y == f x) = some k := by
  obtain ⟨hlt, rfl⟩ := List.getElem?_eq_some_iff.1 hk
  refine List.findIdx?_eq_some_iff_getElem.2 ⟨hlt, beq_self_eq_true _, fun j hj => ?_⟩
  have hne := List.pairwise_iff_getElem.1 (List.pairwise_map.1 h) j k (by omega) hlt hj
  simpa using hne

namespace SourceStepper

variable {s : SourceStepper} {k : Nat} {stop : SourceStop}

theorem Cached.nodup_steps (h : s.Cached) : (s.stops.map (·.stepIndex)).Nodup :=
  List.pairwise_map.2 h.stops_spec.2

theorem follow_of_findIdx?
    (h : (s.stops.findIdx? fun stop => stop.stepIndex == s.inner.selected) = some k) :
    s.follow = { s with cursor := k } := by
  rw [follow, h]

/-- The line of a stop puts both cursors on it. -/
theorem findFunc?_of_stop (h : s.Cached) (hstop : s.stops[k]? = some stop) :
    s.findFunc? stop.line = some (s.onStop k stop (some .click)) := by
  rw [findFunc?_eq h, findIdx?_of_nodup h.collapsed.nodup hstop, Option.bind_some, hstop]
  rfl

/-- So does its step. -/
theorem select?_of_stop (h : s.Cached) (hstop : s.stops[k]? = some stop) :
    s.select? stop.stepIndex = some (s.onStop k stop s.inner.lastMove) := by
  have hlt := h.stops_spec.1 stop (List.mem_of_getElem? hstop)
  have hfound := findIdx?_of_nodup h.nodup_steps hstop
  have hfollow : (s.withInner { s.inner with selected := stop.stepIndex }).follow =
      s.onStop k stop s.inner.lastMove :=
    follow_of_findIdx? hfound
  rw [select?, TraceStepper.select?_of_lt hlt, Option.map_some, hfollow]

/-- Any other line is refused. -/
theorem findFunc?_of_not_mem {line : UInt32} (h : line ∉ s.stops.map (·.line)) :
    s.findFunc? line = none := by
  have hnone : (s.stops.findIdx? fun stop => stop.line == line) = none := by
    refine List.findIdx?_eq_none_iff.2 fun stop hstop => ?_
    exact beq_eq_false_iff_ne.2 fun hline => h (List.mem_map.2 ⟨stop, hstop, hline⟩)
  rw [findFunc?, hnone]
  rfl

end SourceStepper

/-! ## What is printed -/

open SourceStepper

/-- The row of a stop. -/
def rowText (file : String) (stop : SourceStop) : String :=
  file ++ ":" ++ number stop.line.toNat ++ " -> step " ++ number stop.stepIndex

/-- The source line of stop `k`, as it is shown with the step. -/
def sourceText (file : String) (stops : List SourceStop) (k : Nat) (stop : SourceStop) : String :=
  "  source: " ++ file ++ ":" ++ number stop.line.toNat ++ " (" ++ number (k + 1) ++ "/" ++
    number stops.length ++ ")"

/-- The report is on step `i`; the lines `next` follow those of the step itself. -/
def Report.ShowsStep (r : Report) (steps : List Step) (i : Nat) (next : List String) : Prop :=
  ∃ step asm rest, steps[i]? = some step ∧ step.asmLine = .ok asm ∧
    r = Report.ofLines (["Step " ++ number (i + 1) ++ "/" ++ number steps.length ++ ": " ++
        step.instructionName, "  asm line: " ++ lineText asm,
      "  gas used: " ++ number (gasBefore steps i).toNat] ++ next ++ rest)

section Show
variable {s : SourceStepper} {steps : List Step} {k : Nat} {stop : SourceStop}

/-- The selected step is shown, and the source line under the cursor after it. -/
theorem showStep_showsStep (hsteps : s.inner.steps = steps)
    (hnum : ∀ step ∈ steps, step.line ≠ some lastLine) (hlt : s.selected < steps.length)
    (exit : Option ExitCode) :
    (showStep s exit).ShowsStep steps s.selected (sourceLines s) := by
  subst hsteps
  have hstep : s.inner.steps[s.selected]? = some s.inner.steps[s.selected] :=
    List.getElem?_eq_getElem hlt
  have hasm := oneBased?_eq (hnum _ (List.getElem_mem hlt))
  refine ⟨_, _, stackLines s.stack ++ (exit.map exitCodeText).toList, hstep, hasm, ?_⟩
  rw [showStep_eq hstep hasm, List.append_assoc, List.append_assoc]
  rfl

theorem sourceLines_of_stop (hmode : s.isSourceMode = true)
    (hstop : s.stops[s.cursor]? = some stop) :
    sourceLines s = [sourceText s.primaryFile s.stops s.cursor stop] := by
  have hline : s.sourceLine = some stop.line := by
    rw [sourceLine, hstop]
    rfl
  exact sourceLines_eq hmode hline

theorem showStep_onStop (hmode : s.isSourceMode = true) (hsteps : s.inner.steps = steps)
    (hnum : ∀ step ∈ steps, step.line ≠ some lastLine) (hstop : s.stops[k]? = some stop)
    (hlt : stop.stepIndex < steps.length) (mark : Option Transition) (exit : Option ExitCode) :
    (showStep (s.onStop k stop mark) exit).ShowsStep steps stop.stepIndex
      [sourceText s.primaryFile s.stops k stop] := by
  have hsource : sourceLines (s.onStop k stop mark) =
      [sourceText s.primaryFile s.stops k stop] :=
    sourceLines_of_stop (s := s.onStop k stop mark) hmode hstop
  rw [← hsource]
  exact showStep_showsStep (s := s.onStop k stop mark) hsteps hnum hlt exit

end Show

/-! ## Rows and steps -/

/-- Each row leads to the step it names, by its line and by its step. Any other line leads where
nothing is picked, to the first row. -/
structure Session.Rows (session : Session) (choice : SourceChoice) (settings : Settings)
    (rows : List SourceStop) : Prop where
  listed : session.listSteps choice settings =
    Report.ofLines (rows.map (rowText (choice.primaryFile settings)))
  lines : (rows.map (·.line)).Nodup
  steps : (rows.map (·.stepIndex)).Nodup
  within : ∀ row ∈ rows, row.stepIndex < session.trace.steps.length
  agree : ∀ row ∈ rows, session.inspect choice (.sourceLine row.line) settings =
    session.inspect choice (.step row.stepIndex) settings
  shown : ∀ k row, rows[k]? = some row →
    (session.inspect choice (.step row.stepIndex) settings).ShowsStep session.trace.steps
      row.stepIndex [sourceText (choice.primaryFile settings) rows k row]
  other : ∀ line, line ∉ rows.map (·.line) →
    session.inspect choice (.sourceLine line) settings = session.inspect choice .start settings
  start : ∃ row, rows[0]? = some row ∧ session.inspect choice .start settings =
    session.inspect choice (.step row.stepIndex) settings

section Rows
variable {session : Session} {choice : SourceChoice} {settings : Settings} {s₀ : SourceStepper}

theorem Session.Opens.onStop_front (h : session.Opens choice settings s₀)
    (hmode : s₀.isSourceMode = true) :
    ∃ stop, s₀.stops[0]? = some stop ∧ s₀ = s₀.onStop 0 stop s₀.inner.lastMove := by
  obtain ⟨stop, hstop, hselected⟩ := h.atFront.atStop (h.atFront.isSourceMode_iff.1 hmode)
  have hcursor := h.atFront.cursor_front
  refine ⟨stop, hcursor ▸ hstop, ?_⟩
  rw [onStop, hselected, ← hcursor]
  rfl

/-- **The listing of source lines and the steps shown.** -/
theorem listing_leads_to_steps (h : session.Numbered) (choice : SourceChoice)
    (settings : Settings) :
    ∃ s₀, openStepper session choice settings = .ok s₀ ∧
      (s₀.isSourceMode = true → session.Rows choice settings s₀.stops) := by
  obtain ⟨s₀, hopen, hs₀⟩ := openStepper_ok h choice settings
  refine ⟨s₀, hopen, fun hmode => ?_⟩
  have hcached := hs₀.atFront.toCached
  have hfile : s₀.primaryFile = choice.primaryFile settings := hs₀.inputs.primaryFile
  have hsteps : s₀.inner.steps = session.trace.steps := hs₀.inputs.steps
  have hwithin : ∀ row ∈ s₀.stops, row.stepIndex < session.trace.steps.length := by
    rw [← hsteps]
    exact hcached.stops_spec.1
  obtain ⟨exit, hinspect⟩ := inspect_eq hopen
  have hline : ∀ k row, s₀.stops[k]? = some row →
      session.inspect choice (.sourceLine row.line) settings =
        showStep (s₀.onStop k row (some .click)) exit := by
    intro k row hrow
    refine hinspect _ _ ?_
    rw [moveCursor, findFunc?_of_stop hcached hrow]
    rfl
  have hstep : ∀ k row, s₀.stops[k]? = some row →
      session.inspect choice (.step row.stepIndex) settings =
        showStep (s₀.onStop k row s₀.inner.lastMove) exit := by
    intro k row hrow
    refine hinspect _ _ ?_
    rw [moveCursor, select?_of_stop hcached hrow]
  have hstart : session.inspect choice .start settings = showStep s₀ exit := hinspect _ _ rfl
  refine ⟨?_, hcached.collapsed.nodup, hcached.nodup_steps, hwithin, fun row hrow => ?_,
    fun k row hrow => ?_, fun line hother => ?_, ?_⟩
  · rw [Session.listSteps, hopen, Report.ofLookup, if_pos hmode, hfile]
    rfl
  · obtain ⟨k, hk⟩ := List.mem_iff_getElem?.1 hrow
    rw [hline k row hk, hstep k row hk]
    rfl
  · rw [hstep k row hrow, ← hfile]
    exact showStep_onStop hmode hsteps h.trace hrow (hwithin row (List.mem_of_getElem? hrow)) _ _
  · rw [hstart]
    refine hinspect _ _ ?_
    rw [moveCursor, findFunc?_of_not_mem hother]
    rfl
  · obtain ⟨row, hrow, hfront⟩ := hs₀.onStop_front hmode
    refine ⟨row, hrow, ?_⟩
    rw [hstart, hstep 0 row hrow, ← hfront]

end Rows

/-- The loop goes over lines 3 and 7 twice, and leaves them at its last two steps. -/
theorem listing_leads_to_steps_loop : loopSession.Numbered ∧
    loopSession.Rows ⟨true, none⟩ {} [⟨3, 2⟩, ⟨7, 3⟩] ∧
    loopSession.listSteps ⟨true, none⟩ {} =
      Report.ofLines ["main.tolk:3 -> step 2", "main.tolk:7 -> step 3"] := by
  obtain ⟨s₀, hopen, hrows⟩ := listing_leads_to_steps numbered_loopSession ⟨true, none⟩ {}
  have hloop : openStepper loopSession ⟨true, none⟩ {} = .ok loopStepper := rfl
  obtain rfl := Except.ok.inj (hopen.symm.trans hloop)
  exact ⟨numbered_loopSession, hrows rfl, rfl⟩

end TvmDebug
