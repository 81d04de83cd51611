import GenericC.Compile
import GenericC.Files

/-! Reading a file and looking at its tokens, its program or its instantiations, without writing anything. -/

namespace GenericC

structure LoadedFile where
  files : FileSet
  number : UInt32
  file : SourceFile

structure Inspection (α : Type) where
  files : FileSet
  value : α
  bag : Bag

namespace LoadedFile

def read {m : Type → Type} [Monad m] [Files m] [Composition] (path : Text) : m (Except FileError LoadedFile) := do
  let workingDir ← Files.workingDir
  match ← Files.read path with
  | .error error => return .error error
  | .ok raw =>
    let (text, flags) := FileContent.normalize raw
    let (files, number) := FileSet.add { workingDir } path text flags
    return .ok { files, number, file := ⟨Path.clean path, text, flags⟩ }

/-- Reports are kept up to a number, and sorted. -/
def inspect {α : Type} (loaded : LoadedFile) (maxDiagnostics : Int) (value : α) (reports : List Diagnostic) : Inspection α :=
  { files := loaded.files, value, bag := ((Bag.empty maxDiagnostics).reportAll reports).sort }

def tokenize (loaded : LoadedFile) (maxDiagnostics : Int) : Inspection (List Token) :=
  let (tokens, reports) := GenericC.tokenize loaded.number loaded.file.content
  loaded.inspect maxDiagnostics tokens reports

def parse (loaded : LoadedFile) (maxDiagnostics : Int) : Inspection Program :=
  let parsed := parseFile ({ maxDiagnostics } : CompileSettings).parse loaded.number loaded.file.content
  loaded.inspect maxDiagnostics parsed.program parsed.reports

def compile (loaded : LoadedFile) (settings : CompileSettings) : CompileResult :=
  compileFile settings loaded.number loaded.file

end LoadedFile
end GenericC
