import TvmDebug.Session.Report
/-!
# The arguments of the command line

* `Command`, `Invocation`: what the user asks for.
* `Options`: the options of one command, read from its arguments. An option is a name after two
  dashes; its value follows after an equals sign or as the next argument, which then must not look
  like an option. A double dash ends the options. No option may be given twice.
* `Invocation.ofArguments?`: what all arguments together ask for; `none` when they make no sense.
-/
set_option autoImplicit false

namespace TvmDebug

/-! ## What can be asked for -/

inductive Command where
  | inspect (bundle : String) (choice : SourceChoice) (position : Position)
  | steps (bundle : String) (choice : SourceChoice)
  | exitCode (bundle : String) (json : Bool)
  | groups (bundle : String) (json : Bool)

def Command.bundle : Command → String
  | .inspect bundle _ _ => bundle
  | .steps bundle _ => bundle
  | .exitCode bundle _ => bundle
  | .groups bundle _ => bundle

/-- A command with the settings file to use, if one is named, and whether to keep a log file. -/
structure Request where
  settingsFile : Option String
  logFile : Bool
  command : Command

inductive Invocation where
  | version
  | help
  | run (request : Request)

/-! ## Options -/

/-- What may follow the name of an option. -/
inductive Takes where
  | nothing
  | value
deriving DecidableEq

/-- The options found so far, and the arguments that are none. -/
structure Options where
  flags : List String
  values : List (String × String)
  positional : List String

namespace Options

def empty : Options := ⟨[], [], []⟩

def has (o : Options) (name : String) : Bool := o.flags.contains name

def value? (o : Options) (name : String) : Option String := o.values.lookup name

def isGiven (o : Options) (name : String) : Bool := o.has name || (o.value? name).isSome

def addFlag? (o : Options) (name : String) : Option Options :=
  if o.isGiven name then none else some { o with flags := o.flags ++ [name] }

def addValue? (o : Options) (name value : String) : Option Options :=
  if o.isGiven name then none else some { o with values := o.values ++ [(name, value)] }

def addPositional (o : Options) (args : List String) : Options :=
  { o with positional := o.positional ++ args }

end Options

/-- An argument that is read as an option: a dash and something after it. -/
def looksLikeOption (arg : String) : Bool :=
  match arg.toList with
  | '-' :: _ :: _ => true
  | _ => false

/-- The name of a long option, and what follows its equals sign. -/
def splitOption? (arg : String) : Option (String × Option String) :=
  match arg.toList with
  | '-' :: '-' :: cs =>
    let name := String.ofList (cs.takeWhile (· != '='))
    match cs.dropWhile (· != '=') with
    | [] => some (name, none)
    | _ :: value => some (name, some (String.ofList value))
  | _ => none

/-- One argument that looks like an option, with those after it: the options with it and the
arguments left. -/
def Options.read? (known : List (String × Takes)) (o : Options) (arg : String)
    (rest : List String) : Option (Options × List String) := do
  let (name, value) ← splitOption? arg
  let takes ← known.lookup name
  match takes, value, rest with
  | .nothing, none, rest => some (← o.addFlag? name, rest)
  | .value, some v, rest => some (← o.addValue? name v, rest)
  | .value, none, v :: rest => if looksLikeOption v then none else some (← o.addValue? name v, rest)
  | _, _, _ => none

/-- The options of a command. Each argument takes one unit of fuel. -/
def Options.ofArguments? (known : List (String × Takes)) :
    (fuel : Nat) → Options → List String → Option Options
  | _, o, [] => some o
  | 0, _, _ => none
  | fuel + 1, o, arg :: rest =>
    if arg = "--" then some (o.addPositional rest)
    else if looksLikeOption arg then do
      let (o, rest) ← o.read? known arg rest
      ofArguments? known fuel o rest
    else ofArguments? known fuel (o.addPositional [arg]) rest

/-! ## Values of options -/

/-- A path is not empty. -/
def path? (s : String) : Option String := if s.isEmpty then none else some s

def count? (s : String) : Option Nat :=
  ((Text.unsigned? s.toList).bind Text.toUInt64?).map (·.toNat)

def lineNumber? (s : String) : Option UInt32 := do
  let n ← Text.signed? s.toList
  if 0 ≤ n then Text.toUInt32? n.toNat else none

def Options.optional? {α : Type} (o : Options) (name : String) (f : String → Option α) :
    Option (Option α) :=
  match o.value? name with
  | some s => (f s).map some
  | none => some none

/-! ## Commands -/

def sourceOptions : List (String × Takes) := [("source", .nothing), ("source-file", .value)]

def positionOptions : List (String × Takes) :=
  [("step", .value), ("line", .value), ("clicks", .value), ("source-line", .value)]

def Options.bundle? (o : Options) : Option String :=
  match o.positional with
  | [bundle] => path? bundle
  | _ => none

/-- A source file may be named only when source lines are stepped over. -/
def Options.sourceChoice? (o : Options) : Option SourceChoice :=
  if (o.value? "source-file").isSome && !o.has "source" then none
  else some ⟨o.has "source", o.value? "source-file"⟩

/-- At most one position may be given. Clicks go with a line; together with one of the other
positions they do nothing. -/
def Options.position? (o : Options) : Option Position := do
  let step ← o.optional? "step" count?
  let line ← o.optional? "line" lineNumber?
  let clicks ← o.optional? "clicks" count?
  let sourceLine ← o.optional? "source-line" lineNumber?
  match step, line, sourceLine with
  | some i, none, none => some (.step i)
  | none, some l, none => some (.line l (clicks.getD 1))
  | none, none, some l => if o.has "source" then some (.sourceLine l) else none
  | none, none, none => if clicks.isSome then none else some .start
  | _, _, _ => none

def options? (known : List (String × Takes)) (args : List String) : Option Options :=
  Options.ofArguments? known args.length Options.empty args

def Command.ofArguments? (name : String) (args : List String) : Option Command :=
  match name with
  | "inspect" => do
    let o ← options? (sourceOptions ++ positionOptions) args
    some (.inspect (← o.bundle?) (← o.sourceChoice?) (← o.position?))
  | "steps" => do
    let o ← options? sourceOptions args
    some (.steps (← o.bundle?) (← o.sourceChoice?))
  | "exit-code" => do
    let o ← options? [("json", .nothing)] args
    some (.exitCode (← o.bundle?) (o.has "json"))
  | "groups" => do
    let o ← options? [("json", .nothing)] args
    some (.groups (← o.bundle?) (o.has "json"))
  | _ => none

/-! ## All arguments -/

def globalOptions : List (String × Takes) := [("config", .value), ("log-file", .nothing)]

/-- The settings file that the user names: the one of the option, else that of the environment. -/
def settingsFile? (o : Options) (environment : Option String) : Option (Option String) :=
  match (o.value? "config").or environment with
  | some path => (path? path).map some
  | none => some none

/-- An argument that is a long name, or a dash and a letter, whatever follows the letter. -/
def asksFor (name : String) (letter : Char) (arg : String) : Bool :=
  arg == name || ['-', letter].isPrefixOf arg.toList

/-- What the arguments after the options `o` ask for. Each argument takes one unit of fuel. -/
def Invocation.ofArgumentsFrom? (environment : Option String) :
    (fuel : Nat) → Options → List String → Option Invocation
  | 0, _, _ => none
  | _, _, [] => none
  | fuel + 1, o, arg :: rest =>
    if asksFor "--version" 'V' arg then some .version
    else if asksFor "--help" 'h' arg then some .help
    else if looksLikeOption arg then do
      let (o, rest) ← o.read? globalOptions arg rest
      let _ ← settingsFile? o none
      ofArgumentsFrom? environment fuel o rest
    else do
      let command ← Command.ofArguments? arg rest
      some (.run ⟨← settingsFile? o environment, o.has "log-file", command⟩)

/-- What the arguments ask for; `environment` names a settings file, too. -/
def Invocation.ofArguments? (environment : Option String) (args : List String) :
    Option Invocation :=
  ofArgumentsFrom? environment args.length Options.empty args

end TvmDebug
