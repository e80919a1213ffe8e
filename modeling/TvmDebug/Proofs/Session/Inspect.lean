import TvmDebug.Proofs.Session.Clicks
import TvmDebug.Proofs.Stepper.Arrivals
/-! # The source line of the step that is shown

A session is opened with its inputs set, and the step is then put in place by picking steps or
source lines (`Position.ops`). The source line printed with the step is therefore the one last
arrived at, which is the line of the step itself if the step is the last execution of its line
(`inspect_source_line`). -/
set_option autoImplicit false

namespace TvmDebug

open SourceStepper

/-- The file whose source lines are stepped over. -/
def SourceChoice.primaryFile (choice : SourceChoice) (settings : Settings) : String :=
  choice.file.getD settings.stepper.primarySourceFile

/-! ## What the steps of a session execute -/

namespace Session

/-- No step and no instruction stands in the line without a number. -/
structure Numbered (session : Session) : Prop where
  trace : session.trace.Numbered
  instructions : ∀ i, session.instructions = some i → i.Numbered

/-- The step executes a source line of `file`. -/
def Executes (session : Session) (file : String) (line : UInt32) (i : Nat) : Prop :=
  ∃ mapping instructions, session.mapping = some mapping ∧
    session.instructions = some instructions ∧
    session.trace.Executes mapping instructions file i line

/-- No later step executes the line. -/
def LastExecutes (session : Session) (file : String) (line : UInt32) (i : Nat) : Prop :=
  session.Executes file line i ∧ ∀ j, session.Executes file line j → j ≤ i

/-- A stepper that holds the session. -/
def loaded (session : Session) (choice : SourceChoice) (settings : Settings) : SourceStepper :=
  { new settings.stepper with
    inner := { (new settings.stepper).inner with trace := some (shared session.trace) }
    primaryFile := choice.primaryFile settings
    mapping := session.mapping.map shared
    instructions := session.instructions.map shared }

/-- A stepper as it is when the session has been opened. -/
structure Opens (session : Session) (choice : SourceChoice) (settings : Settings)
    (s : SourceStepper) : Prop where
  atFront : s.AtFront
  inputs : SameInputs { session.loaded choice settings with enabled := choice.source } s

/-- What is selected after `ops`, and the source line shown with it. -/
structure Selects (session : Session) (file : String) (s₀ : SourceStepper)
    (ops : List SourceStepper.Op) (s : SourceStepper) (line : UInt32) : Prop where
  run : SourceStepper.run s₀ ops = .ok s
  steps : s.inner.steps = session.trace.steps
  primaryFile : s.primaryFile = file
  isSourceMode : s.isSourceMode = true
  sourceLine : s.sourceLine = some line
  arrived : s₀.ArrivedAt (session.LastExecutes file) ops line
  own : ∀ l, session.LastExecutes file l s.selected → line = l

end Session

/-! ## Opening a session -/

section Open
variable {session : Session} {choice : SourceChoice} {settings : Settings}

theorem openStepper_eq (session : Session) (choice : SourceChoice) (settings : Settings) :
    openStepper session choice settings =
      (session.loaded choice settings).setEnabled choice.source := by
  have htrace : (new settings.stepper).setTrace (some (Session.shared session.trace)) =
      .ok { new settings.stepper with
        inner := { (new settings.stepper).inner with
          trace := some (Session.shared session.trace) } } :=
    refresh_of_disabled rfl rfl
  have hopen : session.stepper settings.stepper =
      .ok (session.loaded ⟨choice.source, none⟩ settings) := by
    rw [Session.stepper, htrace]
    exact refresh_of_disabled rfl rfl
  rw [openStepper, hopen]
  obtain ⟨source, file⟩ := choice
  cases file with
  | none => rfl
  | some file =>
    have hfile : (session.loaded ⟨source, none⟩ settings).setPrimaryFile file =
        .ok (session.loaded ⟨source, some file⟩ settings) :=
      refresh_of_disabled rfl rfl
    show ((session.loaded ⟨source, none⟩ settings).setPrimaryFile file >>=
      fun s => s.setEnabled source) = _
    rw [hfile]
    rfl

theorem atFront_loaded (h : session.Numbered) (choice : SourceChoice) (settings : Settings) :
    (session.loaded choice settings).AtFront where
  inner := by
    have htrace : ∀ t, some (Session.shared session.trace) = some t → t.value.Numbered := by
      rintro t ⟨⟩
      exact h.trace
    exact TraceStepper.sound_setTrace (TraceStepper.sound_new settings.stepper) htrace
  numbered := by
    intro i hi
    obtain ⟨instructions, hinstructions, rfl⟩ := Option.map_eq_some_iff.1 hi
    exact h.instructions instructions hinstructions
  found_of_holds := fun _ _ _ hholds => nomatch hholds.enabled
  holds_of_found := nofun
  cursor_lt := fun hne => absurd rfl hne
  cursor_zero := fun _ => rfl
  aligned := .inr (offStops_of_nil rfl)
  cursor_front := rfl
  unmarked := rfl
  atStop := fun hne => absurd rfl hne

theorem openStepper_ok (h : session.Numbered) (choice : SourceChoice) (settings : Settings) :
    ∃ s, openStepper session choice settings = .ok s ∧ session.Opens choice settings s := by
  have hsets : (Op.setEnabled choice.source).Sets := trivial
  obtain ⟨s, happly, hs⟩ := (atFront_loaded h choice settings).apply hsets trivial
  obtain ⟨s', hset, hs'⟩ := exists_of_map_eq_ok happly
  obtain rfl : s' = s := (Prod.mk.inj hs').2
  refine ⟨s', (openStepper_eq session choice settings).trans hset, hs, ?_⟩
  unfold setEnabled at hset
  split at hset
  · next henabled =>
    obtain rfl := Except.ok.inj hset
    exact ⟨henabled, rfl, rfl, rfl, rfl⟩
  · exact sameInputs_of_refresh hset

namespace Session.Opens

variable {s : SourceStepper} (h : session.Opens choice settings s)

include h

theorem source (hmode : s.isSourceMode = true) : choice.source = true := by
  obtain ⟨t, m, d, hholds⟩ := h.atFront.holds_of_stops (h.atFront.isSourceMode_iff.1 hmode)
  exact h.inputs.enabled.symm.trans hholds.enabled

/-- What the inputs of an opened stepper execute is what the session executes. -/
theorem ran_iff (hmode : s.isSourceMode = true) (line : UInt32) (i : Nat) :
    s.Ran line i ↔ session.Executes (choice.primaryFile settings) line i := by
  constructor
  · intro hran
    obtain ⟨t, m, d, hholds, hexecutes⟩ := h.inputs.symm.ran hran
    obtain rfl := Option.some.inj hholds.trace
    obtain ⟨mapping, hmapping, rfl⟩ := Option.map_eq_some_iff.1 hholds.mapping
    obtain ⟨instructions, hinstructions, rfl⟩ := Option.map_eq_some_iff.1 hholds.instructions
    exact ⟨mapping, instructions, hmapping, hinstructions, hexecutes⟩
  · rintro ⟨mapping, instructions, hmapping, hinstructions, hexecutes⟩
    refine h.inputs.ran ⟨Session.shared session.trace, Session.shared mapping,
      Session.shared instructions, ⟨h.source hmode, rfl, ?_, ?_⟩, hexecutes⟩
    · exact congrArg (Option.map Session.shared) hmapping
    · exact congrArg (Option.map Session.shared) hinstructions

theorem lastRan_eq (hmode : s.isSourceMode = true) :
    s.LastRan = session.LastExecutes (choice.primaryFile settings) := by
  funext line i
  refine propext (and_congr (h.ran_iff hmode line i) (forall_congr' fun j => ?_))
  exact imp_congr_left (h.ran_iff hmode line j)

end Session.Opens

end Open

/-! ## Putting the step in place -/

/-- What is picked on the way to a position. -/
def Position.ops : Position → List SourceStepper.Op
  | .start => []
  | .step i => [.select i]
  | .line asm clicks => List.replicate clicks (.click asm)
  | .sourceLine func => [.findFunc func]

/-- A step that is asked for by its position is one of `total` steps. -/
def Position.Within (position : Position) (total : Nat) : Prop :=
  ∀ i, position = .step i → i < total

theorem Position.places_of_mem_ops (position : Position) {op : SourceStepper.Op}
    (h : op ∈ position.ops) : op.Places := by
  cases position with
  | start => cases h
  | step i =>
    obtain rfl : op = .select i := List.mem_singleton.1 h
    trivial
  | line asm clicks =>
    obtain rfl : op = .click asm := List.eq_of_mem_replicate h
    trivial
  | sourceLine func =>
    obtain rfl : op = .findFunc func := List.mem_singleton.1 h
    trivial

section Place
variable {s s' : SourceStepper}

theorem moveCursor_eq (h : s.Sound) {position : Position} (hwithin : position.Within s.total)
    (hrun : SourceStepper.run s position.ops = .ok s') :
    moveCursor s position = .ok (.ok s') := by
  cases position with
  | start =>
    obtain rfl := Except.ok.inj hrun
    rfl
  | step i =>
    have hselect : (Except.ok ((s.select? i).getD s) : Except Fault SourceStepper) = .ok s' := hrun
    rw [select?, TraceStepper.select?_of_lt (hwithin i rfl)] at hselect
    rw [moveCursor, select?, TraceStepper.select?_of_lt (hwithin i rfl)]
    obtain rfl := Except.ok.inj hselect
    rfl
  | line asm clicks =>
    have hclicks : SourceStepper.run s (List.replicate clicks (.click asm)) = .ok s' := hrun
    rw [moveCursor, clickMany_eq_run h.inner, hclicks]
    rfl
  | sourceLine func =>
    have hfind : (Except.ok ((s.findFunc? func).getD s) : Except Fault SourceStepper) = .ok s' :=
      hrun
    rw [moveCursor, Except.ok.inj hfind]

/-- With source lines there are steps, and the one selected has a line to show. -/
theorem exists_current (h : s.Sound) (hne : s.stops ≠ []) :
    ∃ step asm, s.inner.steps[s.selected]? = some step ∧ step.asmLine = .ok asm := by
  obtain ⟨t, m, d, hholds⟩ := h.holds_of_stops hne
  have htotal : s.total ≠ 0 := by
    obtain ⟨stop, hstop⟩ := List.exists_mem_of_ne_nil _ hne
    have hlt := h.stops_spec.1 stop hstop
    omega
  have hlt : s.selected < s.inner.steps.length := h.inner.selected_lt htotal
  have hmem : s.inner.steps[s.selected] ∈ t.value.steps := by
    have hsteps : s.inner.steps = t.value.steps := by rw [TraceStepper.steps, hholds.trace]
    exact hsteps ▸ List.getElem_mem hlt
  have hasm := oneBased?_eq (h.inner.numbered t hholds.trace _ hmem)
  exact ⟨_, _, List.getElem?_eq_getElem hlt, hasm⟩

theorem Report.after_ofLines (ls ls' : List String) :
    Report.after ls (Report.ofLines ls') = Report.ofLines (ls ++ ls') := by
  simp [Report.after, Report.ofLines, Report.lines, String.join_append]

/-- The report is on the step under the cursor, and has `line` as its source line. -/
def Report.Shows (r : Report) (s : SourceStepper) (line : UInt32) : Prop :=
  ∃ step asm rest, s.inner.steps[s.selected]? = some step ∧ step.asmLine = .ok asm ∧
    r = Report.ofLines (["Step " ++ number (s.selected + 1) ++ "/" ++ number s.inner.steps.length ++
        ": " ++ step.instructionName,
      "  asm line: " ++ lineText asm, "  gas used: " ++ number s.usedGas.toNat,
      "  source: " ++ s.primaryFile ++ ":" ++ number line.toNat ++ " (" ++ number (s.cursor + 1) ++
        "/" ++ number s.stops.length ++ ")"] ++ rest)

theorem showStep_eq {step : Step} {asm : Option UInt32}
    (hstep : s.inner.steps[s.selected]? = some step) (hasm : step.asmLine = .ok asm)
    (exit : Option ExitCode) :
    showStep s exit = Report.ofLines (["Step " ++ number (s.selected + 1) ++ "/" ++
        number s.inner.steps.length ++ ": " ++ step.instructionName,
      "  asm line: " ++ lineText asm, "  gas used: " ++ number s.usedGas.toNat] ++
        (sourceLines s ++ stackLines s.stack ++ (exit.map exitCodeText).toList)) := by
  have hcurrent : s.current = some step := hstep
  have hhighlight : s.highlightLine = .ok asm := by
    have hinner : s.inner.current = some step := hstep
    rw [highlightLine, TraceStepper.highlightLine, hinner]
    exact hasm
  rw [showStep, hcurrent, hhighlight]
  refine (Report.after_ofLines _ _).trans ?_
  simp only [List.cons_append, List.nil_append]
  rfl

theorem sourceLines_eq (hmode : s.isSourceMode = true) {line : UInt32}
    (hline : s.sourceLine = some line) :
    sourceLines s = ["  source: " ++ s.primaryFile ++ ":" ++ number line.toNat ++ " (" ++
      number (s.cursor + 1) ++ "/" ++ number s.stops.length ++ ")"] := by
  rw [sourceLines, if_pos hmode, hline]

theorem showStep_shows (h : s.Sound) (hmode : s.isSourceMode = true) {line : UInt32}
    (hline : s.sourceLine = some line) (exit : Option ExitCode) :
    (showStep s exit).Shows s line := by
  obtain ⟨step, asm, hstep, hasm⟩ := exists_current h (h.isSourceMode_iff.1 hmode)
  refine ⟨step, asm, stackLines s.stack ++ (exit.map exitCodeText).toList, hstep, hasm, ?_⟩
  rw [showStep_eq hstep hasm, sourceLines_eq hmode hline]
  simp only [List.cons_append, List.nil_append]

end Place

/-! ## The source line printed -/

section Inspect
variable {session : Session} {choice : SourceChoice} {settings : Settings} {s₀ : SourceStepper}

theorem Session.Opens.selects (h : session.Opens choice settings s₀)
    (hmode : s₀.isSourceMode = true) {ops : List SourceStepper.Op} (hops : ∀ op ∈ ops, op.Places) :
    ∃ s line, s.Sound ∧ session.Selects (choice.primaryFile settings) s₀ ops s line := by
  have hne : s₀.stops ≠ [] := h.atFront.isSourceMode_iff.1 hmode
  obtain ⟨s, line, hrun, hs, hinputs, hstops, hline, harrived⟩ :=
    arrived_of_run h.atFront.toSound (h.atFront.atStop hne) hops
  have hlastRan : s.LastRan = session.LastExecutes (choice.primaryFile settings) := by
    rw [← h.lastRan_eq hmode]
    funext l i
    exact propext (hinputs.lastRan_iff l i)
  refine ⟨s, line, hs, hrun, hinputs.steps.trans h.inputs.steps,
    hinputs.primaryFile.trans h.inputs.primaryFile, hs.isSourceMode_iff.2 (hstops ▸ hne), hline,
    h.lastRan_eq hmode ▸ harrived, fun l hlast => ?_⟩
  have hl := hs.sourceLine_of_lastRan (hlastRan ▸ hlast)
  exact Option.some.inj (hline.symm.trans hl)

/-- Wherever the step is put, it is shown with the same exit code. -/
theorem inspect_eq (hopen : openStepper session choice settings = .ok s₀) :
    ∃ exit, ∀ position s, moveCursor s₀ position = .ok (.ok s) →
      session.inspect choice position settings = showStep s exit := by
  cases hexit : session.exitCode with
  | ok exit =>
    refine ⟨exit, fun position s hmove => ?_⟩
    rw [Session.inspect, hopen, Report.ofLookup, hmove, hexit]
    rfl
  | error missing =>
    refine ⟨none, fun position s hmove => ?_⟩
    rw [Session.inspect, hopen, Report.ofLookup, hmove, hexit]
    rfl

/-- **The source line of the step shown.** -/
theorem inspect_source_line (h : session.Numbered) (choice : SourceChoice) (settings : Settings) :
    ∃ s₀, openStepper session choice settings = .ok s₀ ∧ (s₀.isSourceMode = true →
      (∀ ops, (∀ op ∈ ops, op.Places) →
        ∃ s line, session.Selects (choice.primaryFile settings) s₀ ops s line) ∧
      (∀ func i, session.Executes (choice.primaryFile settings) func i →
        ∃ s, SourceStepper.run s₀ [.findFunc func] = .ok s ∧
          session.LastExecutes (choice.primaryFile settings) func s.selected) ∧
      (∀ position : Position, position.Within session.trace.steps.length →
        ∃ s line, session.Selects (choice.primaryFile settings) s₀ position.ops s line ∧
          (session.inspect choice position settings).Shows s line)) := by
  obtain ⟨s₀, hopen, hs₀⟩ := openStepper_ok h choice settings
  refine ⟨s₀, hopen, fun hmode => ⟨fun ops hops => ?_, fun func i hexecutes => ?_,
    fun position hwithin => ?_⟩⟩
  · obtain ⟨s, line, -, hselects⟩ := hs₀.selects hmode hops
    exact ⟨s, line, hselects⟩
  · rw [← hs₀.lastRan_eq hmode]
    exact arrives_of_findFunc hs₀.atFront.toSound ((hs₀.ran_iff hmode func i).2 hexecutes)
  · obtain ⟨s, line, hs, hselects⟩ := hs₀.selects hmode fun op => position.places_of_mem_ops
    have htotal : s₀.total = session.trace.steps.length := congrArg List.length hs₀.inputs.steps
    have hmove := moveCursor_eq hs₀.atFront.toSound (htotal ▸ hwithin) hselects.run
    obtain ⟨exit, hinspect⟩ := inspect_eq hopen
    refine ⟨s, line, hselects, ?_⟩
    rw [hinspect _ _ hmove]
    exact showStep_shows hs hselects.isSourceMode hselects.sourceLine exit

end Inspect

/-! ## The loop once more -/

def loopSession : Session where
  trace := loopTrace.value
  vmLog := none
  cells := none
  mapping := some loopMapping.value
  instructions := some loopSections.value

theorem numbered_loopSession : loopSession.Numbered where
  trace := numbered_loopTrace
  instructions := by
    rintro i ⟨⟩
    exact numbered_loopSections

/-- The last execution of line 7 is shown with line 7. -/
theorem inspect_source_line_loop : loopSession.Numbered ∧
    (Position.step 3).Within loopSession.trace.steps.length ∧
    ∃ s, loopSession.Selects "main.tolk" loopStepper [.select 3] s 7 ∧
      (loopSession.inspect ⟨true, none⟩ (.step 3) {}).Shows s 7 := by
  obtain ⟨s₀, hopen, hsource⟩ := inspect_source_line numbered_loopSession ⟨true, none⟩ {}
  have hloop : openStepper loopSession ⟨true, none⟩ {} = .ok loopStepper := rfl
  obtain rfl := Except.ok.inj (hopen.symm.trans hloop)
  obtain ⟨-, -, hinspect⟩ := hsource rfl
  have hwithin : (Position.step 3).Within loopSession.trace.steps.length := by
    rintro i ⟨⟩
    decide
  obtain ⟨s, line, hselects, hshows⟩ := hinspect (.step 3) hwithin
  have hselect : SourceStepper.run loopStepper [.select 3] =
      .ok (loopStepper.onStop 1 ⟨7, 3⟩ none) := rfl
  obtain rfl := Except.ok.inj (hselects.run.symm.trans hselect)
  obtain rfl : 7 = line := Option.some.inj hselects.sourceLine
  exact ⟨numbered_loopSession, hwithin, _, hselects, hshows⟩

/-- Step 1 executes line 7, which is executed again, and is shown with line 3. -/
theorem source_line_left_behind : loopSession.Numbered ∧
    loopSession.Executes "main.tolk" 7 1 ∧
    openStepper loopSession ⟨true, none⟩ {} = .ok loopStepper ∧ loopStepper.isSourceMode = true ∧
    loopSession.inspect ⟨true, none⟩ (.step 1) {} = Report.ofLines ["Step 2/4: PUSHINT",
      "  asm line: 20", "  gas used: 18", "  source: main.tolk:3 (1/2)", "  stack (0):"] := by
  refine ⟨numbered_loopSession, ?_, rfl, rfl, rfl⟩
  have howns : loopSections.value.Owns 2 20 := by
    refine ⟨⟨_, rfl, .atLine "PUSHINT" 19, List.mem_cons_self, rfl⟩, fun id hid => ?_⟩
    obtain ⟨e, he, rfl, ha⟩ := printsAt_iff_mem.1 hid
    have hall : ∀ e ∈ loopSections.value.entries,
        20 ∈ (e.2.filterMap fun i => i.line.map (· + 1)) → 2 ≤ e.1 := by
      decide
    exact hall e he ha
  exact ⟨loopMapping.value, loopSections.value, rfl, rfl, _, 20, 2, .ofLine "main.tolk" 7, rfl, rfl,
    howns, rfl, by decide, rfl⟩

end TvmDebug
