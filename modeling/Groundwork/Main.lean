import Groundwork.Command.Run
import Groundwork.Source.Reading

/-!
The program. Files are those of the machine. It has no network and runs no other commands: a
provider is unreachable, a repository cannot be fetched, and a store lasts as long as the run.
-/

namespace Groundwork.Program

def timestampOf (t : IO.FS.SystemTime) : Timestamp := ⟨t.sec * 1000000 + (t.nsec.toNat / 1000 : Nat)⟩

def readFile (bytes : IO ByteArray) (info : IO.FS.Metadata) : IO StoredFile := do
  let modified := timestampOf info.modified
  try
    return { bytes := ← bytes, modified }
  catch _ => return { bytes := .empty, modified, isReadable := false }

/-- What lies at a place as far as the walk over it can see: bytes of other files are not read. -/
partial def treeOf (folder : IO.FS.DirEntry) : IO FileTree := do
  let info ← folder.path.symlinkMetadata
  match info.type with
  | .symlink => return .link ""
  | .dir =>
    let inside ← folder.path.readDir
    let seen := inside.toList.filter fun e => !FileTree.skippedFolders.contains e.fileName
    return .folder (← seen.mapM fun e => do return (e.fileName, ← treeOf e))
  | _ =>
    if FileTree.isIncluded folder.fileName then return .file (← readFile (IO.FS.readBinFile folder.path) info)
    else return .file { bytes := .empty, modified := timestampOf info.modified }

def lookUp (path : FilePath) : IO (Option FileTree) := do
  let place := (← IO.currentDir) / path.text
  try
    let info ← place.metadata
    match info.type with
    | .dir =>
      let inside ← place.readDir
      let seen := inside.toList.filter fun e => !FileTree.skippedFolders.contains e.fileName
      return some (.folder (← seen.mapM fun e => do return (e.fileName, ← treeOf e)))
    | _ => return some (.file (← readFile (IO.FS.readBinFile place) info))
  catch _ => return none

def faultOf : IO.Error → FileFault
  | .noFileOrDirectory .. => .missing
  | .alreadyExists .. => .alreadyThere
  | .inappropriateType .. => .isFolder
  | _ => .notFolder

def attempted (action : IO Unit) : IO (Except FileFault Unit) := do
  try
    action
    return .ok ()
  catch error => return .error (faultOf error)

def files : Files IO where
  at? := lookUp
  makeFolder path := attempted do IO.FS.createDirAll ((← IO.currentDir) / path.text)
  write path text := attempted do IO.FS.writeFile ((← IO.currentDir) / path.text) text

/-- The greatest number of seconds that a clock of nanoseconds can count. -/
def longestPause : Float := 9223372036.0

def pauseFor (seconds : Float) : IO (Except Failure Unit) := do
  if longestPause < seconds then return .error (.data .tooLarge)
  else if 0.0 ≤ seconds then
    IO.sleep (seconds * 1000.0).toUInt32
    return .ok ()
  else return .error (.data .badValue)

def environment : IO Environment :=
  Environment.names.filterMapM fun name => do return (← IO.getEnv name).map (name, ·)

def world : IO (Except Failure (Command.World IO)) := do
  let env ← environment
  let userHome := FilePath.ofText ((← IO.getEnv "HOME").getD "/")
  let here := FilePath.ofText (← IO.currentDir).toString
  return (Configuration.defaultFile env userHome).map fun defaultConfig =>
    { files, environment := env, userHome, workingFolder := here, defaultConfig
      parse := Grammar.read
      fetcher :=
        { fetch := fun url _ => return .error (.clone (.failed url "no command can be run"))
          release := fun _ => return () }
      send := fun _ => return .unreachable "no network"
      pause := pauseFor
      loadStore := fun _ => return {}
      keepStore := fun _ _ => return () }

end Groundwork.Program

def main (args : List String) : IO UInt32 := do
  match ← Groundwork.Program.world with
  | .error failure =>
    IO.eprintln failure.message
    return 1
  | .ok world =>
    let outcome ← Groundwork.Command.run world args
    IO.print outcome.output
    IO.eprint (outcome.errors.getD "")
    return outcome.exitCode.toUInt32
