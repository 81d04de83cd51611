import GenericC.Build.Cache
import GenericC.Build.Outputs
import GenericC.Build.Stage
import GenericC.Diagnostic.Pretty

/-! Building several sources: each is read, compiled and written on its own. -/

namespace GenericC

structure BuildRequest where
  files : List Text
  /-- The folder that sources are named from. -/
  baseDir : Text := []
  outputPath : Text := []
  outputDir : Text := []
  header : Bool := false
  listInsts : Bool := false
  paths : Option PathMode := some .relative
  cache : Option Cache := none
  compile : CompileSettings := {}
  /-- Whether the build is called off before it begins. -/
  canceled : Bool := false
deriving Repr

inductive BuildFailure
  | noRequest
  | noFiles
  | ambiguousOutput
  | canceled
deriving DecidableEq, Repr

def BuildFailure.message : BuildFailure → Text
  | noRequest => "missing build request"
  | noFiles => "no source files to build"
  | ambiguousOutput => "an output file can only be given for a single source; use an output directory"
  | canceled => "context canceled"

structure FileResult where
  source : Text
  display : Text
  outputPath : Text := []
  headerPath : Text := []
  instsPath : Text := []
  files : FileSet := {}
  /-- What the compiler made of it; missing when its turn never came. -/
  result : Option CompileResult := none
  cached : Bool := false
  /-- The failure to read or write that stopped it. -/
  problem : Option Text := none
  timings : StageTimings := {}

namespace FileResult

def failed (file : FileResult) : Bool := file.problem.isSome || file.result.all (·.failed)

def output? (file : FileResult) : Option Text := (file.result.bind (·.output)).filter (!·.isEmpty)

end FileResult

def errorSummary (bag : Bag) : Option Text :=
  match bag.items.filter fun item => item.severity = .error with
  | [] => none
  | [only] => some (Text.concat [only.code.id, ": ", only.message])
  | first :: rest =>
    some (Text.concat [first.code.id, ": ", first.message, " (and ", Text.ofNat rest.length, " more)"])

section
variable {m : Type → Type} [Monad m] [Files m]

/-- Writes a file and makes its folder; the failure is told in words. -/
def writeOutput (path content : Text) : m (Option Text) := do
  match ← Files.makeFolders (Path.directory path) with
  | .error error => return some (Text.concat ["failed to create output dir: ", error.message])
  | .ok _ =>
    match ← Files.write path content with
    | .error error => return some (Text.concat ["failed to write build output ", path.quoted, ": ", error.message])
    | .ok _ => return none

def writeOutputs : List (Text × Text) → m (Option Text)
  | [] => return none
  | (path, content) :: rest => do
    match ← writeOutput path content with
    | some problem => return some problem
    | none => writeOutputs rest

end

namespace BuildRequest

def plan (request : BuildRequest) (workingDir : Text) : OutputPlan :=
  { workingDir, baseDir := request.baseDir, outputPath := request.outputPath, outputDir := request.outputDir }

/-- The paths for a C file, its header and its list of instantiations; empty for what is not written. -/
def companions (request : BuildRequest) (output : Text) : Text × Text :=
  (if request.header then companionPath output ".h" else [],
    if request.listInsts then companionPath output ".insts" else [])

/-- The settings for one source. A header has its guard from its own path. -/
def settingsFor (request : BuildRequest) (headerPath : Text) : CompileSettings :=
  if request.header then { request.compile with header := true, guard := guardName headerPath } else request.compile

def texts (request : BuildRequest) (file : FileResult) (result : CompileResult) (output : Text) : List (Text × Text) :=
  let header := if file.headerPath.isEmpty then [] else [(file.headerPath, result.header.getD [])]
  let insts := match result.insts with
    | some insts =>
      if file.instsPath.isEmpty then [] else [(file.instsPath, insts.dump (some file.files) request.paths)]
    | none => []
  (file.outputPath, output) :: header ++ insts

variable {m : Type → Type} [Monad m] [Files m] [Composition] [EntryCodec]

def writeStage (request : BuildRequest) (file : FileResult) (result : CompileResult) (output : Text) :
    m (FileResult × List BuildEvent) := do
  let event (status : BuildStatus) (problem : Option Text := none) : BuildEvent :=
    { file := file.display, stage := .write, status, problem }
  let problem ← writeOutputs (request.texts file result output)
  let file := { file with timings := file.timings.set .write 0 }
  match problem with
  | some problem =>
    let bag := result.bag.report (Diagnostic.ofError .cannotWrite {} problem)
    return ({ file with result := some { result with bag }, problem := some problem },
      [event .working, event .error (some problem)])
  | none =>
    let file := { file with result := some result }
    if result.failed then return (file, [event .working, event .error (errorSummary result.bag)])
    else return (file, [event .working, event .done])

def compileStage (request : BuildRequest) (file : FileResult) (number : UInt32) (content : SourceFile) :
    m (FileResult × List BuildEvent) := do
  let event (status : BuildStatus) (problem : Option Text := none) (cached : Bool := false) : BuildEvent :=
    { file := file.display, stage := .compile, status, problem, cached }
  let cache := if request.listInsts then none else request.cache
  let compiled ← compileCached cache (request.settingsFor file.headerPath) number content
  let bag := match compiled.problem with
    | some problem => compiled.result.bag.report (Diagnostic.ofWarning .cannotWrite {} problem)
    | none => compiled.result.bag
  let result := { compiled.result with bag }
  let file :=
    { file with result := some result, cached := compiled.cached, timings := file.timings.set .compile 0 }
  match file.output? with
  | none => return (file, [event .working, event .error (errorSummary bag)])
  | some output =>
    let (file, events) ← request.writeStage file result output
    return (file, event .working :: event .done none compiled.cached :: events)

def buildFile (request : BuildRequest) (source display : Text) : m (FileResult × List BuildEvent) := do
  let workingDir ← Files.workingDir
  let files : FileSet := { baseDir := request.baseDir, workingDir }
  let loading : BuildEvent := { file := display, stage := .load, status := .working }
  let file : FileResult := { source, display, timings := StageTimings.set {} .load 0 }
  let stop (files : FileSet) (code : DiagnosticCode) (problem message : Text) : FileResult :=
    { file with
      files
      result := some { bag := (Bag.empty request.compile.maxDiagnostics).report (Diagnostic.ofError code {} message) }
      problem := some problem }
  match ← Files.read source with
  | .error error =>
    let problem := error.message
    return (stop (files.addVirtual source []).1 .cannotRead problem
        (Text.concat ["cannot read ", source, ": ", problem]),
      [loading, { file := display, stage := .load, status := .error, problem := some problem }])
  | .ok raw =>
    let (text, flags) := FileContent.normalize raw
    let (files, number) := files.add source text flags
    match (request.plan workingDir).outputFor source with
    | .error problem =>
      return (stop files .cannotWrite problem problem,
        [loading, { file := display, stage := .write, status := .error, problem := some problem }])
    | .ok outputPath =>
      let content : SourceFile := ⟨Path.clean source, text, flags⟩
      let (headerPath, instsPath) := request.companions outputPath
      let (file, events) ← request.compileStage { file with outputPath, headerPath, instsPath, files } number content
      return (file, loading :: events)

/-- The sources have their turns one after the other. They may as well run side by side: a turn reads its own source and
writes its own outputs, and in an orderly request no other turn writes at any of these places. -/
def buildFiles (request : BuildRequest) : List (Text × Text) → m (List FileResult × List BuildEvent)
  | [] => return ([], [])
  | (source, display) :: rest => do
    let (file, events) ← request.buildFile source display
    let (files, more) ← request.buildFiles rest
    return (file :: files, events ++ more)

end BuildRequest

structure BuildResult where
  files : List FileResult := []
  events : List BuildEvent := []
  timings : StageTimings := {}
  failure : Option BuildFailure := none

def BuildResult.failed (result : BuildResult) : Bool := result.files.any (·.failed)

/-- Builds every source of a request. Trouble with one source does not keep the others from being built. -/
def build {m : Type → Type} [Monad m] [Files m] [Composition] [EntryCodec] (request : BuildRequest) : m BuildResult := do
  if request.files.isEmpty then return { failure := some .noFiles }
  else if !request.outputPath.isEmpty && 1 < request.files.length then return { failure := some .ambiguousOutput }
  else
    let workingDir ← Files.workingDir
    let sources := request.files.map fun source => (source, displayName workingDir request.baseDir source)
    let whole (status : BuildStatus) (problem : Option Text := none) : BuildEvent :=
      { stage := .build, status, problem }
    let queued := sources.map fun source => ({ file := source.2, stage := .load, status := .queued } : BuildEvent)
    if request.canceled then
      return {
        files := sources.map fun (source, display) => { source, display }
        events := queued ++ [whole .working, whole .error (some BuildFailure.canceled.message)]
        timings := StageTimings.set {} .build 0
        failure := some .canceled }
    else
      let (files, events) ← request.buildFiles sources
      let timings := files.foldl (fun (timings : StageTimings) file => timings.addAll file.timings) {}
      let status : BuildStatus := if files.any (·.failed) then .error else .done
      return { files, events := queued ++ whole .working :: events ++ [whole status], timings := timings.set .build 0 }

end GenericC
