import GenericC.Build.Progress
import GenericC.Build.Traced
import GenericC.Cli.Settings
import GenericC.Diagnostic.Document
import GenericC.Frontend
import GenericC.Program.Outline
import GenericC.Project

/-! Running a command: what it prints and which files it leaves. -/

namespace GenericC

structure Surroundings where
  home : Text := []
  cacheHome : Text := []
  started : Moment := {}
  outIsTerminal : Bool := false
  errIsTerminal : Bool := false
deriving Repr

inductive Failure
  /-- All there is to say was said. -/
  | reported
  | because (message : Text)
deriving DecidableEq, Repr

/-- What a run has printed so far, and what is left to do at its end. -/
structure Transcript where
  out : Text := []
  err : Text := []
  tracing : Option TraceSettings := none
  recorder : Recorder := { level := .off }
  heapProfile : Text := []
deriving Repr

structure Outcome where
  status : Nat
  out : Text
  err : Text
deriving DecidableEq, Repr

/-- A step of a run. What was printed stays when the run fails. -/
abbrev Run (m : Type → Type) := ExceptT Failure (StateT Transcript m)

namespace Run

variable {m : Type → Type} [Monad m]

def lift {α : Type} (action : m α) : Run m α := ExceptT.lift (StateT.lift action)

def say (t : Text) : Run m Unit := modify fun transcript => { transcript with out := transcript.out ++ t }

def warn (t : Text) : Run m Unit := modify fun transcript => { transcript with err := transcript.err ++ t }

def fail {α : Type} (message : Text) : Run m α := throw (.because message)

def orFail {α : Type} : Except Text α → Run m α
  | .ok value => pure value
  | .error message => fail message

def record (step : Recorder → Recorder) : Run m Unit :=
  modify fun transcript => { transcript with recorder := step transcript.recorder }

variable [Files m] [Terminal] [Composition] [EntryCodec] [Toml.Reader]

/-! Before a command -/

def isFolder (path : Text) : Run m Bool := do
  match ← lift (Files.stat path) with
  | .ok .folder => return true
  | _ => return false

def searchStart : List Text → Run m Text
  | [] => return "."
  | first :: _ => do if ← isFolder first then return first else return Path.directory first

/-- The manifest that the flags name, or that lies around the first argument. -/
def loadManifest (arguments : Arguments) : Run m (Option Manifest) := do
  let path := arguments.text Flags.config
  if !path.isEmpty then
    match ← lift (ManifestConfig.load path) with
    | .error error => fail error.message
    | .ok config =>
      let absolute := Path.absolute (← lift Files.workingDir) path
      return some { path := absolute, root := Path.directory absolute, config }
  else
    match ← lift (Manifest.load (← searchStart arguments.rest)) with
    | .error error => fail error.message
    | .ok manifest => return manifest

def startTracing (arguments : Arguments) (manifest : Option Manifest) : Run m Unit := do
  match ← orFail (TraceSettings.ofArguments arguments manifest) with
  | none => return ()
  | some settings =>
    if !settings.isForErrors then
      if let .error error ← lift (Files.write settings.path []) then
        fail (Text.concat ["failed to create tracer: failed to open trace output: ", error.message])
    modify fun transcript => { transcript with tracing := some settings, recorder := { level := settings.level } }

/-- What is written in place of a profile: which one it is and when it was begun. -/
def profile (around : Surroundings) (kind : Text) : Text := Text.concat [kind, " ", around.started.render, "\n"]

def startProfile (around : Surroundings) (flag : Flag) (kind : Text) (arguments : Arguments) : Run m Unit := do
  let path := arguments.text flag
  if !path.isEmpty then
    if let .error error ← lift (Files.write path (profile around kind)) then
      fail (Text.concat ["failed to start profiling: ", kind, ": ", error.message])

def startProfiles (around : Surroundings) (arguments : Arguments) : Run m Unit := do
  startProfile around Flags.cpuProfile "cpu profile" arguments
  startProfile around Flags.runtimeTrace "runtime trace" arguments
  modify fun transcript => { transcript with heapProfile := arguments.text Flags.memProfile }

/-! Commands -/

def load (path complaint : Text) : Run m LoadedFile := do
  match ← lift (LoadedFile.read path) with
  | .ok loaded => return loaded
  | .error error => fail (Text.concat [complaint, ": ", error.message])

def checkFormat (format : Text) (known : List Text) : Run m Unit := do
  if !known.contains format then fail (Text.concat ["unknown format: ", format])

/-- Prints what was made of a file behind what was reported, and fails if there were errors. -/
def present (shared : SharedSettings) (files : FileSet) (bag : Bag) (shown : Text) : Run m Unit := do
  warn (shared.render bag files)
  say shown
  if bag.hasErrors then throw .reported

def tokenize (around : Surroundings) (arguments : Arguments) (path : Text) : Run m Unit := do
  let format := arguments.text Flags.prettyOrJson
  checkFormat format ["pretty", "json"]
  let shared ← orFail (SharedSettings.ofArguments arguments around.errIsTerminal)
  let loaded ← load path "tokenization failed"
  let seen := loaded.tokenize shared.maxDiagnostics
  record (·.pass {} "lex" [] [("tokens", Text.ofNat seen.value.length)])
  present shared seen.files seen.bag
    (if format = Text.ofString "json" then Token.jsonListing (some seen.files) seen.value
      else Token.listing (some seen.files) seen.value)

def parse (around : Surroundings) (arguments : Arguments) (path : Text) : Run m Unit := do
  let format := arguments.text Flags.prettyOrJson
  checkFormat format ["pretty", "json"]
  let shared ← orFail (SharedSettings.ofArguments arguments around.errIsTerminal)
  let loaded ← load path "parsing failed"
  let seen := loaded.parse shared.maxDiagnostics
  record (·.pass {} "parse" [] [("decls", Text.ofNat seen.value.decls.length)])
  present shared seen.files seen.bag
    (if format = Text.ofString "json" then seen.value.jsonOutline else seen.value.outline (some seen.files))

def insts (around : Surroundings) (arguments : Arguments) (manifest : Option Manifest) (path : Text) : Run m Unit := do
  let format := arguments.text Flags.textOrJson
  checkFormat format ["text", "json"]
  let maxDepth := match manifest with
    | some manifest =>
      if arguments.isGiven Flags.maxDepth.name then arguments.number Flags.maxDepth else manifest.config.maxDepth
    | none => arguments.number Flags.maxDepth
  let shared ← orFail (SharedSettings.ofArguments arguments around.errIsTerminal)
  let loaded ← load path "compilation failed"
  let settings : CompileSettings := { maxDiagnostics := shared.maxDiagnostics, maxDepth, timings := shared.timings }
  let result := loaded.compile settings
  record (·.compile {} settings loaded.number loaded.file)
  present shared loaded.files result.bag
    (match result.insts with
      | none => []
      | some insts =>
        if format = Text.ofString "json" then insts.jsonDump (some loaded.files) (some shared.paths)
        else insts.dump (some loaded.files) (some shared.paths))

def openCache (around : Surroundings) : Run m Cache := do
  let base ←
    if !around.cacheHome.isEmpty then pure around.cacheHome
    else if around.home.isEmpty then fail "failed to open cache: $HOME is not defined"
    else pure (Path.join around.home ".cache")
  match ← lift (Cache.openAt (Path.join base Command.tool)) with
  | .ok cache => return cache
  | .error error => fail (Text.concat ["failed to open cache: ", error.message])

def clean (around : Surroundings) : Run m Unit := do
  let cache ← openCache around
  match ← lift cache.clear with
  | .ok _ => say (Text.concat ["cleared ", cache.folder, "\n"])
  | .error error => fail (Text.concat ["failed to clear ", cache.folder.quoted, ": ", error.message])

def versionJson (info : BuildInfo) (full : Bool) : Json :=
  let field (name value : Text) : List (Text × Json) :=
    let value := value.trim
    Json.optionalString name (if full && value.isEmpty then "unknown" else value)
  .ofGroups [[("tool", .string Command.tool), ("version", .string info.version.trim)], field "git_commit" info.commit,
    field "git_message" info.message, field "build_date" info.date]

def versionText (info : BuildInfo) (painting full : Bool) : Text :=
  let missing (label value : Text) : Text :=
    if full && value.isEmpty then Text.concat [label, ": unknown\n"] else []
  Text.concat [info.long painting, missing "commit" info.commit, missing "message" info.message, missing "built" info.date]

def version (around : Surroundings) (arguments : Arguments) : Run m Unit := do
  let format := arguments.text Flags.prettyOrJson
  let full := arguments.truth Flags.full
  if format.toLower = Text.ofString "json" then say (versionJson {} full).document
  else if format.toLower = Text.ofString "pretty" then
    let mode ← orFail (SwitchMode.ofFlag Flags.color (arguments.text Flags.color))
    say (versionText {} (mode.isOn around.outIsTerminal && around.outIsTerminal) full)
  else fail (Text.concat ["unsupported format ", format.quoted, " (must be pretty or json)"])

/-! Building -/

/-- A path as it is told to the user: from the working folder unless it lies outside. -/
def shownOutput (workingDir path : Text) : Text :=
  if workingDir.isEmpty || path.isEmpty then path
  else match Path.relative? workingDir path with
    | none => path
    | some way => if Text.startsWith way ".." then path else way

def wroteLine (workingDir : Text) (file : FileResult) : Text :=
  Text.concat ["wrote ", shownOutput workingDir file.outputPath, if file.cached then " (cached)" else "", "\n"]

def buildSummary (workingDir : Text) (result : BuildResult) : Text :=
  let written := result.files.filter fun file => file.output?.isSome && file.problem.isNone
  let total (count : CompileResult → Nat) : Nat :=
    written.foldl (fun sum file => sum + (file.result.map count).getD 0) 0
  Text.concat [written.flatMap (wroteLine workingDir), "built ", Text.ofNat written.length, " of ",
    Text.ofNat result.files.length, " file(s): ", Text.ofNat (total (·.structs)), " struct and ",
    Text.ofNat (total (·.funcs)), " function instantiation(s)\n"]

/-- The diagnostics of all files as one document, by the names of the files. Of two files with one name the later
counts. -/
def diagnosticsDocument (shared : SharedSettings) (result : BuildResult) : Text :=
  let settings : DocumentSettings := { positions := true, paths := shared.paths, notes := true, fixes := true }
  let entries := result.files.filterMap fun file =>
    file.result.map fun compiled => (file.display, compiled.bag.toJson (some file.files) settings)
  let latest := entries.foldl
    (fun (kept : List (Text × Json)) entry => kept.filter (·.1 ≠ entry.1) ++ [entry]) []
  (Json.object (latest.mergeSort fun a b => a.1.ble b.1)).document

def timingLines (timings : StageTimings) : Text :=
  timings.stages.flatMap fun stage =>
    let milliseconds := Float.ofInt (timings.duration stage).toInt / 1000000
    Text.concat [stage.name.padRight 8, " ", Text.ofFloat 1 milliseconds, " ms\n"]

def reportBuild (settings : BuildSettings) (shared : SharedSettings) (result : BuildResult) : Run m Unit := do
  if settings.json then say (diagnosticsDocument shared result)
  else warn (result.files.flatMap fun file =>
    match file.result with
    | some compiled => shared.render compiled.bag file.files
    | none => [])
  if shared.timings then warn (timingLines result.timings)
  if !shared.quiet && !settings.json then say (buildSummary (← lift Files.workingDir) result)

def noSources : Text :=
  Text.joinWith "\n" ["no sources given and no safec.toml found", "please name the files to build, e.g.:", "  safec build main.sc"]

/-- What is asked of the build. An output given for several files, for a folder or with a slash at its end is a folder. -/
def buildRequest (settings : BuildSettings) (shared : SharedSettings) (baseDir : Text) (files : List Text)
    (cache : Option Cache) : Run m BuildRequest := do
  let asFolder := 1 < files.length || Text.endsWith settings.output [Path.slash] || (← isFolder settings.output)
  let given := !settings.output.isEmpty
  return {
    files
    baseDir
    outputPath := if given && !asFolder then settings.output else []
    outputDir := if given && asFolder then settings.output else settings.outputDir
    header := settings.header
    listInsts := settings.listInsts
    paths := some shared.paths
    cache
    compile := settings.compile }

def build (around : Surroundings) (arguments : Arguments) (manifest : Option Manifest) : Run m Unit := do
  let shared ← orFail (SharedSettings.ofArguments arguments around.errIsTerminal)
  let settings ← orFail (BuildSettings.ofArguments arguments shared manifest)
  let paths := match arguments.rest, manifest with
    | [], some manifest => manifest.sourcePaths
    | rest, _ => rest
  if paths.isEmpty then fail noSources
  let baseDir ← match manifest with
    | some manifest => pure manifest.root
    | none => lift Files.workingDir
  let files ← match ← lift (Sources.list paths) with
    | .ok files => pure files
    | .error error => fail error.message
  let cache ← if settings.cache then some <$> openCache around else pure none
  let request ← buildRequest settings shared baseDir files cache
  let result ← lift (GenericC.build request)
  record (·.built {} request result)
  if let some failure := result.failure then fail failure.message
  if settings.progress.isOn around.errIsTerminal && !shared.quiet then
    let start := Progress.ofFiles "safec build" (result.files.map (·.display))
    warn (result.events.foldl Progress.apply start).close.view
  reportBuild settings shared result
  if result.failed then throw .reported

def help (topic : List Text) : Run m Unit :=
  match Command.find topic with
  | .ok (command, _) => say command.helpText
  | .error _ => warn (Command.unknownTopic topic)

/-! From the arguments to the end -/

def perform (around : Surroundings) (command : Command) (arguments : Arguments) : Run m Unit := do
  let manifest ← loadManifest arguments
  startTracing arguments manifest
  startProfiles around arguments
  let path := arguments.rest.head?.getD []
  match command.name with
  | .build => build around arguments manifest
  | .tokenize => tokenize around arguments path
  | .parse => parse around arguments path
  | .insts => insts around arguments manifest path
  | .clean => clean around
  | .version => version around arguments
  | .help => help arguments.rest
  | .root | .completion => say command.helpText

/-- Finds the command, reads its flags and performs it, unless the flags ask for something else. -/
def execute (around : Surroundings) (arguments : List Text) : Run m Unit := do
  let (command, rest) ← orFail (Command.find arguments)
  let arguments ← orFail ((Arguments.read command.allFlags {} rest).mapError (·.message))
  if arguments.truth (Flags.help command.word) then say command.helpText
  else if command.isRoot && arguments.truth Flags.version then
    say (Text.concat [Command.tool, " version ", ({} : BuildInfo).version, "\n"])
  else if !command.runnable then say command.helpText
  else if let some fault := command.arityFault? arguments.rest then fail fault
  else perform around command arguments

def finish (around : Surroundings) : Run m Unit := do
  let transcript ← get
  if !transcript.heapProfile.isEmpty then
    if let .error error ← lift (Files.write transcript.heapProfile (profile around "heap profile")) then
      warn (Text.concat ["profile: heap profile: ", error.message, "\n"])
  if let some settings := transcript.tracing then
    let text := settings.render (transcript.recorder.events.map fun event => { event with moment := around.started })
    if settings.isForErrors then warn text
    else let _ ← lift (Files.write settings.path text)

end Run

def runTool {m : Type → Type} [Monad m] [Files m] [Terminal] [Composition] [EntryCodec] [Toml.Reader]
    (around : Surroundings) (arguments : List Text) : m Outcome := do
  let (result, transcript) ← (Run.execute around arguments : Run m Unit).run.run {}
  let (_, transcript) ← (Run.finish around : Run m Unit).run.run transcript
  match result with
  | .ok _ => return { status := 0, out := transcript.out, err := transcript.err }
  | .error .reported => return { status := 1, out := transcript.out, err := transcript.err }
  | .error (.because message) =>
    return { status := 1, out := transcript.out, err := Text.concat [transcript.err, "error: ", message, "\n"] }

end GenericC
