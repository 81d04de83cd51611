import GenericC.Compile
import GenericC.Trace.Recorder

/-! What the compilation of a file leaves in a trace. -/

namespace GenericC

def Recorder.instPoints (recorder : Recorder) (context : TraceContext) (insts : List Instantiation) : Recorder :=
  insts.foldl
    (fun recorder inst =>
      recorder.point context .inst (Text.concat ["inst:", inst.mangled]) inst.render context.span)
    recorder

/-- Records a pass: what it created, and then its results. -/
def Recorder.pass (recorder : Recorder) (context : TraceContext) (name : Text) (created : List Instantiation)
    (results : List (Text × Text)) : Recorder :=
  let (recorder, inner, id) := recorder.start context .pass name
  let parent : TraceContext := { inner with span := id }
  let recorder := recorder.instPoints parent created
  (results.foldl (fun recorder (key, value) => recorder.attach id key value) recorder).finish id

def Recorder.compile (recorder : Recorder) (context : TraceContext) (settings : CompileSettings) (number : UInt32)
    (file : SourceFile) : Recorder :=
  let (recorder, inner, id) := recorder.start context .file "compile"
  let recorder := recorder.attach id "path" file.path
  let parsed := parseFile settings.parse number file.content
  let recorder := recorder.pass inner "parse" [] [("decls", Text.ofNat parsed.program.decls.length)]
  if ((Bag.empty settings.maxDiagnostics).reportAll parsed.reports).hasErrors then recorder.finish id
  else
    let collected := Walk.collect parsed.program settings.depth { insts := { collisions := .once [] } }
    let expanded := Walk.expand parsed.program settings.depth collected
    let added := expanded.result.created.drop collected.result.created.length
    let recorder := recorder.pass inner "collect" collected.result.created
      [("structs", Text.ofNat collected.insts.structs.size), ("funcs", Text.ofNat collected.insts.funcs.size)]
    let recorder := recorder.pass inner "expand" added
      [("added", Text.ofNat (expanded.insts.size - collected.insts.size))]
    let emitter : Emitter := { program := parsed.program, insts := expanded.insts, settings := settings.emit }
    let unit := emitter.emit
    let recorder := recorder.pass inner "emit" []
      [("structs", Text.ofNat unit.structs), ("funcs", Text.ofNat unit.funcs), ("bytes", Text.ofNat unit.text.length)]
    let recorder := if settings.header then
        recorder.pass inner "emit_header" [] [("guard", Text.concat [settings.guardFor file.path, "_H"])]
      else recorder
    let recorder := recorder.instPoints { inner with span := id } (expanded.insts.structs.entries ++
      expanded.insts.funcs.entries)
    recorder.finish id

end GenericC
