import TvmDebug.Correlation.Form
import TvmDebug.ExitCode.Form
import TvmDebug.Session.Bundle
/-!
# Reports on a session

* `Report`: the text printed and how printing ended. A fault ends it in the middle.
* `Position`: where to put the cursor before a step is shown.
* `Session.inspect`, `Session.listSteps`, `Session.showExitCode`, `Session.showGroups`: the four
  reports.
-/
set_option autoImplicit false

namespace TvmDebug

/-! ## Reports -/

inductive Ending where
  | done
  | failed (message : String)
  | fault (f : Fault)
deriving DecidableEq

structure Report where
  text : String
  ending : Ending
deriving DecidableEq

namespace Report

def lines (ls : List String) : String := String.join (ls.map (· ++ "\n"))

/-- The whole of some lines. -/
def ofLines (ls : List String) : Report := ⟨lines ls, .done⟩

def failure (message : String) : Report := ⟨"", .failed message⟩

/-- A report after some lines. -/
def after (ls : List String) (r : Report) : Report := ⟨lines ls ++ r.text, r.ending⟩

/-- The report of a value that may not be there. -/
def ofSession {α : Type} (x : Except SessionError α) (f : α → Report) : Report :=
  match x with
  | .ok x => f x
  | .error e => failure e.message

/-- The report of a value that takes a line number; the report ends when there is none. -/
def ofLookup {α : Type} (x : Except Fault α) (f : α → Report) : Report :=
  match x with
  | .ok x => f x
  | .error fault => ⟨"", .fault fault⟩

end Report

/-! ## The stepper of a report -/

/-- Whether source lines are stepped over, and those of which file. -/
structure SourceChoice where
  source : Bool
  file : Option String

def openStepper (session : Session) (choice : SourceChoice) (settings : Settings) :
    Except Fault SourceStepper := do
  let stepper ← session.stepper settings.stepper
  let stepper ← match choice.file with
    | some file => stepper.setPrimaryFile file
    | none => .ok stepper
  stepper.setEnabled choice.source

inductive Position where
  | start
  | step (i : Nat)
  | line (line : UInt32) (clicks : Nat)
  | sourceLine (line : UInt32)

namespace SourceStepper

/-- Clicks a line some times, until a click is refused. -/
def clickTimes (line : UInt32) : (times : Nat) → SourceStepper → Except Fault SourceStepper
  | 0, s => .ok s
  | times + 1, s => do
    let (yes, s) ← s.click line
    if yes then clickTimes line times s else .ok s

/-- Clicks a line any number of times. The clicks go round the steps of the line, so that after
the first round only the number of clicks in the last one matters. -/
def clickMany (s : SourceStepper) (line : UInt32) (times : Nat) : Except Fault SourceStepper := do
  if times = 0 then .ok s
  else
    let (positions, _) ← s.inner.stepsAt line
    let n := positions.length
    clickTimes line (if times < 2 * n then times else n + times % n) s

end SourceStepper

/-- Puts the cursor in place. A line that nothing executed leaves it where it is. -/
def moveCursor (s : SourceStepper) : Position → Except Fault (Except SessionError SourceStepper)
  | .start => .ok (.ok s)
  | .step i => .ok (match s.select? i with
    | some s => .ok s
    | none => .error (.stepOutOfRange i s.total))
  | .line line clicks => (s.clickMany line clicks).map .ok
  | .sourceLine line => .ok (.ok ((s.findFunc? line).getD s))

/-! ## The step under the cursor -/

def number (n : Nat) : String := String.ofList (Text.digits n)

/-- A line number, or a dash for a step without one. -/
def lineText : Option UInt32 → String
  | some line => number line.toNat
  | none => "-"

def sourceLines (s : SourceStepper) : List String :=
  if s.isSourceMode then
    match s.sourceLine with
    | some line =>
      ["  source: " ++ s.primaryFile ++ ":" ++ number line.toNat ++ " (" ++ number (s.cursor + 1) ++
        "/" ++ number s.stops.length ++ ")"]
    | none => []
  else []

def stackLines (stack : List StackElement) : List String :=
  ("  stack (" ++ number stack.length ++ "):") ::
    stack.zipIdx.map fun (e, i) => "    [" ++ number i ++ "] " ++ e.text

def exitCodeText (e : ExitCode) : String :=
  "Exit code " ++ toString e.num.toInt ++ ": " ++ e.description

/-- The step under the cursor with its stack, the gas spent and the exit code. -/
def showStep (s : SourceStepper) (exit : Option ExitCode) : Report :=
  match s.current with
  | none => Report.ofLines ["Trace is empty"]
  | some step =>
    Report.after ["Step " ++ number (s.selected + 1) ++ "/" ++ number s.total ++ ": " ++
      step.instructionName] <|
    Report.ofLookup s.highlightLine fun line =>
    Report.ofLines (["  asm line: " ++ lineText line,
      "  gas used: " ++ number s.usedGas.toNat] ++ sourceLines s ++ stackLines s.stack ++
      (exit.map exitCodeText).toList)

def Session.inspect (session : Session) (choice : SourceChoice) (position : Position)
    (settings : Settings) : Report :=
  let exit := match session.exitCode with
    | .ok exit => exit
    | .error _ => none
  Report.ofLookup (openStepper session choice settings) fun s =>
  Report.ofLookup (moveCursor s position) fun moved =>
  Report.ofSession moved fun s => showStep s exit

/-! ## All steps -/

def padRight (width : Nat) (s : String) : String :=
  s ++ String.ofList (List.replicate (width - s.length) ' ')

def padLeft (width : Nat) (s : String) : String :=
  String.ofList (List.replicate (width - s.length) ' ') ++ s

def stepText (i : Nat) (s : Step) (line : Option UInt32) (used : UInt64) : String :=
  padLeft 5 (number i) ++ "  " ++ padRight 16 s.instructionName ++ " line " ++
    padLeft 5 (lineText line) ++ "  gas " ++ padLeft 5 (number s.gas.toNat) ++ "  total " ++
    number used.toNat

/-- A line for each step, from position `i` on, after `used` gas. -/
def stepRows : (i : Nat) → (used : UInt64) → List Step → Report
  | _, _, [] => Report.ofLines []
  | i, used, s :: ss =>
    let used := used + s.gas
    Report.ofLookup s.asmLine fun line =>
    Report.after [stepText i s line used] (stepRows (i + 1) used ss)

def Session.listSteps (session : Session) (choice : SourceChoice) (settings : Settings) : Report :=
  Report.ofLookup (openStepper session choice settings) fun s =>
  if s.isSourceMode then
    Report.ofLines (s.stops.map fun stop =>
      s.primaryFile ++ ":" ++ number stop.line.toNat ++ " -> step " ++ number stop.stepIndex)
  else stepRows 0 0 s.inner.steps

/-! ## The exit code -/

def raisedBy : Option Instruction → Report
  | none => Report.ofLines ["  the faulting instruction could not be resolved"]
  | some i =>
    Report.ofLookup i.asmLine fun line =>
    Report.ofLines [match line with
      | some line => "  raised by " ++ i.name ++ " at asm line " ++ number line.toNat
      | none => "  raised by " ++ i.name]

def Session.showExitCode (session : Session) (json : Bool) : Report :=
  Report.ofSession session.exitCode fun exit =>
  if json then Report.ofLines [(Json.ofOption ExitCode.toJson exit).pretty]
  else match exit with
    | none => Report.ofLines ["No unhandled exception, the compute phase completed"]
    | some e => Report.after [exitCodeText e] (raisedBy e.info)

/-! ## Highlight groups -/

def lineList (lines : List UInt32) : String :=
  "[" ++ String.intercalate ", " (lines.map fun line => number line.toNat) ++ "]"

def groupText (g : MappingGroup) : String :=
  g.className ++ " " ++ g.color ++ "  source " ++ lineList g.funcLines ++ "  asm " ++
    lineList g.asmLines

def Session.showGroups (session : Session) (json : Bool) (settings : Settings) : Report :=
  Report.ofSession session.debugInfo fun (mapping, instructions) =>
  Report.ofLookup (Correlation.build mapping instructions settings.correlation) fun c =>
  if json then Report.ofLines [(Json.ofList MappingGroup.toJson c.groups).pretty]
  else if c.groups.isEmpty then Report.ofLines ["No source line maps to assembly"]
  else Report.ofLines (c.groups.map groupText)

end TvmDebug
