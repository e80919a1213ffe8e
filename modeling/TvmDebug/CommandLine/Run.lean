import TvmDebug.CommandLine.Arguments
import TvmDebug.FileTree
import TvmDebug.Settings.File
/-!
# Running a command

* `Environment`: the files and directories, which of them are the settings file in the home
  directory and the directory for temporary files, and the settings file that the environment names.
* `Outcome`: what is printed, how the run ended, the settings file in the home directory after it,
  and whether a log file was kept.
* `run`: the outcome of a command line. Arguments come first, then the log file, the settings, the
  bundle and the command.
-/
set_option autoImplicit false

namespace TvmDebug

/-- What a run can see. -/
structure Environment where
  files : FileTree
  /-- The path of the settings file in the home directory. -/
  home : String
  /-- The path of the directory for temporary files. -/
  temporary : String
  /-- The path of a settings file that comes before the one in the home directory. -/
  settingsFile : Option String

namespace Environment

def homeFile (env : Environment) : HomeFile := ⟨env.home, env.files.read env.home⟩

def withHomeFile (env : Environment) (home : HomeFile) : Environment :=
  match home.content with
  | some content => { env with files := env.files.insert home.path (.file content) }
  | none => env

def logDirectory (env : Environment) : String := env.temporary ++ "/tdb-logs/tdb"

def withLogDirectory (env : Environment) : Environment :=
  { env with files := env.files.insert env.logDirectory .directory }

end Environment

inductive Exit where
  | usage
  | report (ending : Ending)
deriving DecidableEq

namespace Exit

def status : Exit → UInt8
  | .report .done => 0
  | .report (.failed _) => 1
  | .usage => 2
  | .report (.fault _) => 101

end Exit

structure Outcome where
  stdout : String
  exit : Exit
  home : HomeFile
  logKept : Bool

def versionText : String := "tdb 0.0.2\n"

def helpText : String := Report.lines [
  "Step through TVM execution traces alongside their source",
  "",
  "Usage: tdb [--config PATH] [--log-file] COMMAND",
  "",
  "Commands:",
  "  inspect BUNDLE    show the step under the cursor",
  "  steps BUNDLE      list the steps of the trace",
  "  exit-code BUNDLE  resolve the exit code",
  "  groups BUNDLE     show which source lines correlate with which assembly lines"]

def Command.report (session : Session) (settings : Settings) : Command → Report
  | .inspect _ choice position => session.inspect choice position settings
  | .steps _ choice => session.listSteps choice settings
  | .exitCode _ json => session.showExitCode json
  | .groups _ json => session.showGroups json settings

/-- The settings of a run, or the words for what went wrong, and what can be seen after they were
loaded. -/
def loadSettings (env : Environment) : Option String → Except String Settings × Environment
  | some path =>
    (match Settings.load path (env.files.read path) with
      | .ok settings => .ok settings
      | .error _ => .error ("Failed to load configuration from " ++ Text.quotePath path),
     env)
  | none =>
    let (settings, home) := env.homeFile.load
    (settings.mapError SettingsError.message, env.withHomeFile home)

/-- What a request prints and how it ends, once its settings are loaded. -/
def Request.report (env : Environment) (r : Request) : Except String Settings → Report
  | .error message => Report.failure message
  | .ok settings =>
    Report.ofSession (Session.load r.command.bundle (env.files.read r.command.bundle)) fun session =>
    r.command.report session settings

def Request.run (env : Environment) (r : Request) : Outcome :=
  let env := if r.logFile then env.withLogDirectory else env
  let (settings, env) := loadSettings env r.settingsFile
  let report := r.report env settings
  ⟨report.text, .report report.ending, env.homeFile, r.logFile⟩

def run (env : Environment) (args : List String) : Outcome :=
  match Invocation.ofArguments? env.settingsFile args with
  | none => ⟨"", .usage, env.homeFile, false⟩
  | some .version => ⟨versionText, .report .done, env.homeFile, false⟩
  | some .help => ⟨helpText, .report .done, env.homeFile, false⟩
  | some (.run request) => request.run env

end TvmDebug
