import GenericC.Manifest

/-! Finding the manifest of a project, and the source files among given paths. -/

namespace GenericC

variable {m : Type → Type} [Monad m] [Files m]

structure StatError where
  path : Text
  error : FileError
deriving DecidableEq, Repr

def StatError.message (error : StatError) : Text :=
  Text.concat ["failed to stat ", error.path.quoted, ": ", error.error.message]

namespace Manifest

/-- The first folder of a list that holds a manifest. A folder with the name of a manifest is passed over. -/
def findAmong : List Text → m (Except StatError (Option Text))
  | [] => return .ok none
  | folder :: rest => do
    let path := Path.join folder fileName
    match ← Files.stat path with
    | .ok .file => return .ok (some path)
    | .ok .folder => findAmong rest
    | .error error => if error.fault = .notFound then findAmong rest else return .error ⟨path, error⟩

/-- The manifest in a folder or in the nearest one around it. -/
def find (start : Text) : m (Except StatError (Option Text)) := do
  let current ← Files.workingDir
  findAmong (Path.ancestors (Path.absolute current (if start.isEmpty then "." else start)))

inductive LoadError
  | stat (error : StatError)
  | manifest (error : ManifestError)
deriving DecidableEq, Repr

def LoadError.message : LoadError → Text
  | stat error => error.message
  | manifest error => error.message

def load [Toml.Reader] (start : Text) : m (Except LoadError (Option Manifest)) := do
  match ← find (m := m) start with
  | .error error => return .error (.stat error)
  | .ok none => return .ok none
  | .ok (some path) =>
    match ← ManifestConfig.load path with
    | .error error => return .error (.manifest error)
    | .ok config => return .ok (some { path, root := Path.directory path, config })

end Manifest

inductive SourcesError
  | stat (error : StatError)
  | walk (error : FileError)
  | noSources
deriving DecidableEq, Repr

namespace SourcesError

def message : SourcesError → Text
  | stat error => error.message
  | walk error => error.message
  | noSources => "no .sc files found"

end SourcesError

namespace Sources

def fileEnding : Text := ".sc"

def isHidden (name : Text) : Bool := name.head? = some (Text.byte '.')

/-- The sources under each path: a file itself, whatever its name, and the source files of a folder outside hidden
folders below it. -/
def gather : List Text → m (Except SourcesError (List Text))
  | [] => return .ok []
  | path :: rest => do
    match ← Files.stat path with
    | .error error => return .error (.stat ⟨path, error⟩)
    | .ok .file => return (← gather rest).map (Path.clean path :: ·)
    | .ok .folder =>
      match ← Files.filesBelow path (!isHidden ·) with
      | .error error => return .error (.walk error)
      | .ok files =>
        let found := (files.filter (Text.endsWith · fileEnding)).map Path.clean
        return (← gather rest).map (found ++ ·)

def arrange (files : List Text) : List Text := (files.mergeSort Text.ble).eraseReps

def list (paths : List Text) : m (Except SourcesError (List Text)) := do
  match ← gather (m := m) paths with
  | .error error => return .error error
  | .ok files => return if files.isEmpty then .error .noSources else .ok (arrange files)

end Sources
end GenericC
