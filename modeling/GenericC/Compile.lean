import GenericC.Emit.Unit
import GenericC.Generics.Dump
import GenericC.Parser
import GenericC.Timing

/-! Compiling one file: from its text to C. -/

namespace GenericC

structure CompileSettings where
  /-- How many diagnostics are kept; zero or less means the usual limit. -/
  maxDiagnostics : Int := 0
  /-- How deep instantiations may lead to each other; zero or less means the usual depth. -/
  maxDepth : Int := 0
  emit : EmitSettings := {}
  header : Bool := false
  /-- The guard of the header; an empty one is made from the path. -/
  guard : Text := []
  timings : Bool := false
deriving DecidableEq, Repr

namespace CompileSettings

def depth (settings : CompileSettings) : Nat := depthFor settings.maxDepth

def guardFor (settings : CompileSettings) (path : Text) : Text :=
  if settings.header && settings.guard.isEmpty then guardName path else settings.guard

def parse (settings : CompileSettings) : ParseSettings :=
  { maxErrors := settings.maxDiagnostics.toNat.toUInt64 }

end CompileSettings

structure CompileResult where
  bag : Bag
  /-- The C file and the header; missing when the source could not be parsed. -/
  output : Option Text := none
  header : Option Text := none
  structs : Nat := 0
  funcs : Nat := 0
  insts : Option Instantiations := none

namespace CompileResult

def failed (result : CompileResult) : Bool := result.bag.hasErrors

def finish (result : CompileResult) (settings : CompileSettings) (path : Text) (clock : Text → Nat)
    (phases : List Text) : CompileResult :=
  let bag := result.bag.sort.dedup
  let timer := phases.foldl (fun (timer : PhaseTimer) name => timer.measure name false (clock name)) {}
  let total := timer.phases.foldl (fun total phase => total + phase.nanoseconds) 0
  if settings.timings then
    { result with bag := bag.append (timingReport "compile" path timer.phases total) }
  else { result with bag }

end CompileResult

/-- Compiles a file to C. Errors of grammar end the compilation before any C is written. `clock` tells how long
each phase took. -/
def compileFile (settings : CompileSettings) (number : UInt32) (file : SourceFile)
    (clock : Text → Nat := fun _ => 0) : CompileResult :=
  let parsed := parseFile settings.parse number file.content
  let bag := (Bag.empty settings.maxDiagnostics).reportAll parsed.reports
  if bag.hasErrors then CompileResult.finish { bag } settings file.path clock ["parse"]
  else
    let prepared := prepare parsed.program settings.depth
    let bag := bag.reportAll prepared.reports
    let emitter : Emitter := { program := parsed.program, insts := prepared.insts, settings := settings.emit }
    let unit := emitter.emit
    let bag := bag.reportAll unit.reports
    let result : CompileResult :=
      { bag
        output := some unit.text
        structs := prepared.insts.structs.size
        funcs := prepared.insts.funcs.size
        insts := some prepared.insts }
    if settings.header then
      let header := emitter.emitHeader (settings.guardFor file.path)
      CompileResult.finish { result with bag := bag.reportAll header.reports, header := some header.text }
        settings file.path clock ["parse", "mono", "emit", "emit-header"]
    else result.finish settings file.path clock ["parse", "mono", "emit"]

end GenericC
