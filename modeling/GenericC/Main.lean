import GenericC.Cli.Run
import GenericC.Stock

/-! The command line: the tool on the files of the machine. -/

namespace GenericC.Machine

/-- A path for the operating system; nothing when it cannot be spelled. -/
def spell? (path : Text) : Option String := String.fromUTF8? ⟨path.toArray⟩

def faultOf : IO.Error → FileFault
  | .noFileOrDirectory .. => .notFound
  | .noSuchThing .. => .notFound
  | .alreadyExists .. => .alreadyThere
  | .inappropriateType _ code _ => if code = 21 then .isFolder else .notFolder
  | .invalidArgument .. => .badName
  | error => .other (Text.ofString (toString error))

def attempt {α : Type} (action path : Text) (step : String → IO α) : IO (Except FileError α) := do
  match spell? path with
  | none => return .error ⟨action, path, .badName⟩
  | some spelling =>
    match ← (step spelling).toBaseIO with
    | .ok value => return .ok value
    | .error error => return .error ⟨action, path, faultOf error⟩

def kindAt (path : String) : IO EntryKind := do
  let data ← (← IO.FS.realPath path).metadata
  return match data.type with
    | .dir => .folder
    | _ => .file

partial def walk (enter : Text → Bool) (path : String) : IO (List Text) := do
  let mut found := []
  for entry in ← (← IO.FS.realPath path).readDir do
    let inner := path ++ "/" ++ entry.fileName
    match ← (kindAt inner).toBaseIO with
    | .ok .folder => if enter (Text.ofString entry.fileName) then found := found ++ (← walk enter inner)
    | _ => found := found ++ [Path.clean (Text.ofString inner)]
  return found

instance : Files IO where
  workingDir := do return Text.ofString (← IO.currentDir).toString
  stat path := attempt "stat" path kindAt
  read path := do
    match ← attempt "open" path fun spelling => IO.FS.readBinFile spelling with
    | .ok bytes => return .ok bytes.toList
    | .error error => return .error (if error.fault = .isFolder then { error with action := "read" } else error)
  write path content := attempt "open" path fun spelling => IO.FS.writeBinFile spelling ⟨content.toArray⟩
  makeFolders path := attempt "mkdir" path fun spelling => IO.FS.createDirAll spelling
  removeAll path := do
    let _ ← attempt "unlinkat" path fun spelling => do
      match ← kindAt spelling with
      | .folder => IO.FS.removeDirAll spelling
      | .file => IO.FS.removeFile spelling
  filesBelow path enter := attempt "lstat" path (walk enter)

def setting (name : String) : IO Text := do return Text.ofString ((← IO.getEnv name).getD "")

def surroundings : IO Surroundings := do
  let ticks ← IO.monoNanosNow
  return {
    home := ← setting "HOME"
    cacheHome := ← setting "XDG_CACHE_HOME"
    started := { Moment.ofUnix 0 ticks 0 with elapsed := 0 }
    outIsTerminal := ← (← IO.getStdout).isTty
    errIsTerminal := ← (← IO.getStderr).isTty }

end GenericC.Machine

def main (arguments : List String) : IO UInt32 := do
  let around ← GenericC.Machine.surroundings
  let outcome ← GenericC.runTool (m := IO) around (arguments.map GenericC.Text.ofString)
  (← IO.getStderr).write ⟨outcome.err.toArray⟩
  (← IO.getStdout).write ⟨outcome.out.toArray⟩
  return outcome.status.toUInt32
