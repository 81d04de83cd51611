import GenericC.Build
import GenericC.Cli.Command
import GenericC.Manifest
import GenericC.Trace.Tracer

/-! What a user asks for: flags over the manifest over what is usual. -/

namespace GenericC

/-- A choice that may be left to whether there is a terminal. -/
inductive SwitchMode
  | auto
  | on
  | off
deriving DecidableEq, Repr

namespace SwitchMode

def ofFlag (flag : Flag) (value : Text) : Except Text SwitchMode :=
  let wanted := value.toLower.trim
  if wanted.isEmpty || wanted = Text.ofString "auto" then .ok auto
  else if wanted = Text.ofString "on" || wanted = Text.ofString "always" then .ok on
  else if wanted = Text.ofString "off" || wanted = Text.ofString "never" then .ok off
  else .error (Text.concat ["invalid --", flag.name, " value ", value.quoted, " (expected auto|on|off)"])

def isOn (mode : SwitchMode) (terminal : Bool) : Bool :=
  match mode with
  | auto => terminal
  | on => true
  | off => false

end SwitchMode

structure SharedSettings where
  colour : Bool := false
  quiet : Bool := false
  timings : Bool := false
  maxDiagnostics : Int := 100
  paths : PathMode := .auto
deriving DecidableEq, Repr

namespace SharedSettings

def ofArguments (arguments : Arguments) (terminal : Bool) : Except Text SharedSettings := do
  let colour ← SwitchMode.ofFlag Flags.color (arguments.text Flags.color)
  let mode := arguments.text Flags.pathMode
  match PathMode.ofFlag? mode with
  | none => throw (PathMode.unknownMessage mode)
  | some paths =>
    return {
      colour := colour.isOn terminal
      quiet := arguments.truth Flags.quiet
      timings := arguments.truth Flags.timings
      maxDiagnostics := arguments.number Flags.maxDiagnostics
      paths }

def pretty (settings : SharedSettings) : PrettySettings :=
  { colour := settings.colour, context := 2, paths := settings.paths, notes := true }

/-- Whether the diagnostics of a bag are shown. Only errors are shown when the user wants quiet. -/
def shows (settings : SharedSettings) (bag : Bag) : Bool :=
  !bag.items.isEmpty && (!settings.quiet || bag.hasErrors)

def render [Terminal] (settings : SharedSettings) (bag : Bag) (files : FileSet) : Text :=
  if settings.shows bag then bag.pretty (some files) settings.pretty else []

end SharedSettings

structure BuildSettings where
  output : Text := []
  outputDir : Text := []
  header : Bool := false
  cache : Bool := false
  listInsts : Bool := false
  progress : SwitchMode := .auto
  json : Bool := false
  compile : CompileSettings := {}
deriving Repr

namespace BuildSettings

def ofFlags (arguments : Arguments) (shared : SharedSettings) : Except Text BuildSettings := do
  let progress ← SwitchMode.ofFlag Flags.ui (arguments.text Flags.ui)
  let format := (arguments.text Flags.diagFormat).toLower
  if format ≠ Text.ofString "pretty" && format ≠ Text.ofString "json" then
    throw (Text.concat ["unknown diag-format: ", format])
  let maxDepth := arguments.number Flags.maxDepth
  if arguments.number Flags.jobs < 0 || maxDepth < 0 then
    throw (Text.ofString "--jobs and --max-depth must not be negative")
  return {
    output := arguments.text Flags.output
    header := arguments.truth Flags.header
    cache := arguments.truth Flags.cache
    listInsts := arguments.truth Flags.emitInsts
    progress
    json := format = Text.ofString "json"
    compile :=
      { maxDiagnostics := shared.maxDiagnostics
        maxDepth
        emit := { comment := arguments.text Flags.headerComment, noComment := arguments.truth Flags.noHeaderComment }
        timings := shared.timings } }

/-- What the manifest says where no flag was given. An empty comment in the manifest means none. -/
def withManifest (settings : BuildSettings) (arguments : Arguments) (manifest : Manifest) : BuildSettings :=
  let config := manifest.config
  let pick {α : Type} (flag : Flag) (given usual : α) : α := if arguments.isGiven flag.name then given else usual
  let emit : EmitSettings :=
    if arguments.isGiven Flags.headerComment.name || arguments.isGiven Flags.noHeaderComment.name ||
        !config.hasHeaderComment then settings.compile.emit
    else { comment := config.headerComment, noComment := config.headerComment.isEmpty }
  { settings with
    outputDir := pick Flags.output settings.outputDir manifest.outputDir
    header := pick Flags.header settings.header config.header
    cache := pick Flags.cache settings.cache config.cache
    compile :=
      { settings.compile with maxDepth := pick Flags.maxDepth settings.compile.maxDepth config.maxDepth, emit } }

def ofArguments (arguments : Arguments) (shared : SharedSettings) (manifest : Option Manifest) :
    Except Text BuildSettings := do
  let settings ← ofFlags arguments shared
  match manifest with
  | none => return settings
  | some manifest => return settings.withManifest arguments manifest

end BuildSettings

/-- How a run is traced, if it is. A path without a level asks for the level of phases. -/
def TraceSettings.ofArguments (arguments : Arguments) (manifest : Option Manifest) : Except Text (Option TraceSettings) := do
  let configured := (manifest.map (·.config.traceLevel)).getD []
  let place := (manifest.map (·.traceOutput)).getD []
  let wanted := if arguments.isGiven Flags.traceLevel.name || configured.isEmpty then arguments.text Flags.traceLevel
    else configured
  let path := if arguments.isGiven Flags.trace.name || place.isEmpty then arguments.text Flags.trace else place
  match TraceLevel.ofFlag? wanted with
  | none => throw (Text.concat ["invalid trace level: ", TraceLevel.unknownMessage wanted])
  | some level =>
    if level = .off && path.isEmpty then return none
    else
      let mode := arguments.text Flags.traceMode
      match TraceMode.ofFlag? mode with
      | none => throw (Text.concat ["invalid trace mode: ", TraceMode.unknownMessage mode])
      | some mode =>
        return some { level := if level = .off then .phase else level, mode, path, ringSize := arguments.number Flags.traceRingSize }

def TraceSettings.isForErrors (settings : TraceSettings) : Bool :=
  settings.path.isEmpty || settings.path = Text.ofString "-"

def TraceSettings.render (settings : TraceSettings) (events : List TraceEvent) : Text :=
  match settings.tracer {} with
  | .error _ => []
  | .ok tracer =>
    let (tracer, _) := events.foldl
      (fun (state : Tracer × UInt64) event => state.1.emit state.2 event) (tracer, (0 : UInt64))
    tracer.flush.1.close.1.outlets.flatMap (·.received)

end GenericC
