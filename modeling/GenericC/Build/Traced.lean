import GenericC.Build
import GenericC.Trace.Compilation

/-! What a build leaves in a trace. -/

namespace GenericC

/-- Records what the compiler did for one source; nothing when its turn never came. -/
def Recorder.builtFile (recorder : Recorder) (context : TraceContext) (request : BuildRequest) (file : FileResult) : Recorder :=
  match file.files.get? 0 with
  | none => recorder
  | some content =>
    if file.outputPath.isEmpty then recorder
    else if file.cached then
      let (recorder, _, id) := recorder.start context .file "compile"
      ((recorder.attach id "path" content.path).attach id "cache" "hit").finish id
    else recorder.compile context (request.settingsFor file.headerPath) 0 content

def Recorder.built (recorder : Recorder) (context : TraceContext) (request : BuildRequest) (result : BuildResult) : Recorder :=
  let (recorder, inner, id) := recorder.start context .driver "build"
  let recorder := recorder.attach id "files" (Text.ofNat request.files.length)
  let recorder := result.files.foldl (fun (recorder : Recorder) file => recorder.builtFile inner request file) recorder
  recorder.finish id

end GenericC
