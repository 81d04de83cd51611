import GenericC.Files
import GenericC.Toml.Document
import GenericC.Trace.Event

/-! Project manifests: the settings of a project and the paths that they stand for. -/

namespace GenericC

structure ManifestConfig where
  name : Text := []
  sources : List Text := []
  outputDir : Text := []
  header : Bool := false
  headerComment : Text := []
  /-- Whether there is a comment, be it empty. -/
  hasHeaderComment : Bool := false
  jobs : Int := 0
  maxDepth : Int := 0
  cache : Bool := false
  traceLevel : Text := []
  traceOutput : Text := []
deriving DecidableEq, Repr

inductive ConfigFault
  | negative (key : Text) (value : Int)
  | emptyPath (key : Text)
  | absolutePath (key path : Text)
  /-- A path that leads out of the project. -/
  | escapingPath (key path : Text)
  | traceLevel (level : Text)
deriving DecidableEq, Repr

def ConfigFault.message : ConfigFault → Text
  | negative key value => Text.concat [key, " must be >= 0, got ", Text.ofInt value]
  | emptyPath key => Text.concat [key, ": empty path"]
  | absolutePath key path => Text.concat [key, " ", path.quoted, ": must be relative"]
  | escapingPath key path => Text.concat [key, " ", path.quoted, ": escapes project root"]
  | traceLevel level => Text.concat ["[trace].level: ", TraceLevel.unknownMessage level]

namespace ManifestConfig

def checkNonnegative (key : Text) (value : Int) : Except ConfigFault Unit :=
  if value < 0 then .error (.negative key value) else .ok ()

/-- A path in a manifest, with blanks around it left out, has to stay inside the project. -/
def checkInside (key path : Text) : Except ConfigFault Unit :=
  let path := path.trim
  if path.isEmpty then .error (.emptyPath key)
  else if Path.isAbsolute path then .error (.absolutePath key path)
  else if (Path.normalNames false path).head? = some (Text.ofString "..") then .error (.escapingPath key path)
  else .ok ()

/-- Checks the settings in a fixed order; the first fault counts. -/
def check (config : ManifestConfig) : Except ConfigFault Unit := do
  checkNonnegative "[build].jobs" config.jobs
  checkNonnegative "[build].max_depth" config.maxDepth
  config.sources.forM (checkInside "[build].sources")
  if !config.outputDir.isEmpty then checkInside "[build].output_dir" config.outputDir
  if !config.traceLevel.isEmpty && (TraceLevel.ofFlag? config.traceLevel).isNone then throw (.traceLevel config.traceLevel)

end ManifestConfig

inductive ManifestFault
  | unreadable (error : FileError)
  | malformed (fault : Toml.Fault)
  | wrongType (key : Toml.Key)
  | unknownKey (key : Toml.Key)
  | noPackage
  | noName
  | invalid (fault : ConfigFault)
deriving DecidableEq, Repr

namespace ManifestFault

def message : ManifestFault → Text
  | unreadable error => Text.concat ["failed to parse TOML: ", error.message]
  | malformed fault => Text.concat ["failed to parse TOML: toml: ", fault.message]
  | wrongType key => Text.concat ["failed to parse TOML: toml: incompatible types for key ", Toml.Key.render key]
  | unknownKey key => Text.concat ["invalid manifest: unknown key ", (Toml.Key.render key).quoted]
  | noPackage => "missing [package]"
  | noName => "missing [package].name"
  | invalid fault => Text.concat ["invalid manifest: ", fault.message]

end ManifestFault

structure ManifestError where
  path : Text
  fault : ManifestFault
deriving DecidableEq, Repr

def ManifestError.message (error : ManifestError) : Text := Text.concat [error.path, ": ", error.fault.message]

namespace ManifestConfig

/-- Code points that differ in case alone are taken for the same; two letters beyond ASCII count as `s` and `k`. -/
def foldedCode (code : Nat) : Nat :=
  if 65 ≤ code && code ≤ 90 then code + 32
  else if code = 0x17F then 's'.toNat
  else if code = 0x212A then 'k'.toNat
  else code

def sameName (a b : Text) : Bool := a.runes.map (foldedCode ·.code) = b.runes.map (foldedCode ·.code)

def fields : List (Text × List Text) :=
  [("package", ["name"]),
    ("build", ["sources", "output_dir", "header", "header_comment", "jobs", "max_depth", "cache"]),
    ("trace", ["level", "output"])]

/-- The proper spelling of a key, if it is one of a section or of a setting. -/
def knownKey? : Toml.Key → Option Toml.Key
  | [section'] => (fields.find? (sameName section' ·.1)).map fun entry => [entry.1]
  | [section', field] => do
    let entry ← fields.find? (sameName section' ·.1)
    return [entry.1, ← entry.2.find? (sameName field)]
  | _ => none

def text? : Toml.Value → Option Text
  | .text t => some t
  | _ => none

def integer? : Toml.Value → Option Int
  | .integer n => some n
  | _ => none

def truth? : Toml.Value → Option Bool
  | .truth b => some b
  | _ => none

def texts? : Toml.Value → Option (List Text)
  | .list items => items.mapM text?
  | _ => none

def set? (config : ManifestConfig) (key : Toml.Key) (value : Toml.Value) : Option ManifestConfig :=
  match key with
  | [_, field] =>
    if field = Text.ofString "name" then (text? value).map fun name => { config with name }
    else if field = Text.ofString "sources" then (texts? value).map fun sources => { config with sources }
    else if field = Text.ofString "output_dir" then (text? value).map fun outputDir => { config with outputDir }
    else if field = Text.ofString "header" then (truth? value).map fun header => { config with header }
    else if field = Text.ofString "header_comment" then (text? value).map fun headerComment => { config with headerComment }
    else if field = Text.ofString "jobs" then (integer? value).map fun jobs => { config with jobs }
    else if field = Text.ofString "max_depth" then (integer? value).map fun maxDepth => { config with maxDepth }
    else if field = Text.ofString "cache" then (truth? value).map fun cache => { config with cache }
    else if field = Text.ofString "level" then (text? value).map fun traceLevel => { config with traceLevel }
    else (text? value).map fun traceOutput => { config with traceOutput }
  | _ => none

def addField (section' : Text) (config : ManifestConfig) (entry : Text × Toml.Value) : Except ManifestFault ManifestConfig :=
  match knownKey? [section', entry.1] with
  | none => .ok config
  | some key =>
    match config.set? key entry.2 with
    | some config => .ok config
    | none => .error (.wrongType [section', entry.1])

def addSection (config : ManifestConfig) (entry : Text × Toml.Value) : Except ManifestFault ManifestConfig :=
  match knownKey? [entry.1], entry.2 with
  | none, _ => .ok config
  | some _, .table fields => fields.foldlM (addField entry.1) config
  | some _, _ => .error (.wrongType [entry.1])

/-- The settings in a document. Values of the wrong type are found before unknown keys, and these before missing ones. -/
def ofDocument (doc : Toml.Document) : Except ManifestFault ManifestConfig := do
  let config ← doc.root.foldlM addSection {}
  if let some key := doc.keys.find? fun key => (knownKey? key).isNone then throw (.unknownKey key)
  if !doc.root.isDefined ["package"] then throw .noPackage
  let name := config.name.trim
  if !doc.root.isDefined ["package", "name"] || name.isEmpty then throw .noName
  let config := { config with name, hasHeaderComment := doc.root.isDefined ["build", "header_comment"] }
  match config.check with
  | .ok _ => return config
  | .error fault => throw (.invalid fault)

def ofText [Toml.Reader] (t : Text) : Except ManifestFault ManifestConfig :=
  match Toml.Reader.parse t with
  | .error fault => .error (.malformed fault)
  | .ok doc => ofDocument doc

def load {m : Type → Type} [Monad m] [Files m] [Toml.Reader] (path : Text) : m (Except ManifestError ManifestConfig) := do
  match ← Files.read path with
  | .error error => return .error ⟨path, .unreadable error⟩
  | .ok content => return (ofText content).mapError fun fault => ⟨path, fault⟩

end ManifestConfig

structure Manifest where
  path : Text
  root : Text
  config : ManifestConfig
deriving DecidableEq, Repr

namespace Manifest

def fileName : Text := "safec.toml"

def resolve (manifest : Manifest) (path : Text) : Text := Path.join manifest.root (Path.clean path.trim)

/-- Where the sources are: the listed paths, or the whole project. -/
def sourcePaths (manifest : Manifest) : List Text :=
  if manifest.config.sources.isEmpty then [manifest.root] else manifest.config.sources.map manifest.resolve

def outputDir (manifest : Manifest) : Text :=
  if manifest.config.outputDir.isEmpty then [] else manifest.resolve manifest.config.outputDir

def traceOutput (manifest : Manifest) : Text :=
  let path := manifest.config.traceOutput.trim
  if path.isEmpty || path = Text.ofString "-" || Path.isAbsolute path then path else manifest.resolve path

end Manifest
end GenericC
