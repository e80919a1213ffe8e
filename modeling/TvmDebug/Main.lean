import TvmDebug.CommandLine.Run
/-!
# The program `tdb`

Reads the files that a command line names, runs it and does what the outcome says.
-/
set_option autoImplicit false

namespace TvmDebug

def readFile? (path : String) : IO (Option ByteArray) := do
  try
    return some (← IO.FS.readBinFile path)
  catch _ => return none

def readFiles (paths : List String) : IO FileTree := do
  let mut files := FileTree.startingAt (← IO.currentDir).toString
  for path in paths do
    if let some content ← readFile? path then
      files := files.insert path (.file content)
  return files

def request? (settingsFile : Option String) (args : List String) : Option Request :=
  match Invocation.ofArguments? settingsFile args with
  | some (.run request) => some request
  | _ => none

def Exit.complaint? : Exit → Option String
  | .usage => some "error: the arguments make no sense; try --help"
  | .report (.failed message) => some ("Error: " ++ message)
  | .report (.fault f) => some f.message
  | .report .done => none

end TvmDebug

open TvmDebug in
def main (args : List String) : IO UInt32 := do
  let env : Environment := {
    files := FileTree.startingAt "/"
    home := ((← IO.getEnv "HOME").getD "") ++ "/.tdb.toml"
    temporary := (← IO.getEnv "TMPDIR").getD "/tmp"
    settingsFile := ← IO.getEnv "TDB_CONFIG" }
  let request := request? env.settingsFile args
  if request.any Request.logFile then IO.FS.createDirAll env.logDirectory
  let named := match request with
    | some request => request.command.bundle :: request.settingsFile.toList
    | none => []
  let env := { env with files := ← readFiles (env.home :: named) }
  let outcome := run env args
  if env.homeFile.content.isNone then
    if let some content := outcome.home.content then
      IO.FS.writeBinFile env.home content
  IO.print outcome.stdout
  if let some complaint := outcome.exit.complaint? then IO.eprintln complaint
  return outcome.exit.status.toUInt32
