import GenericC.Path
import GenericC.Text.Utf8

/-! Where the results of a build go, and how sources are named while it runs. -/

namespace GenericC

def replaceSuffix (path ending : Text) : Text := path.dropEnd (Path.suffix path) ++ ending

/-- The way to a path from a folder, unless it starts with two dots. -/
def wayBelow? (workingDir folder path : Text) : Option Text :=
  (Path.relative? (Path.absolute workingDir folder) (Path.absolute workingDir path)).filter
    fun way => !way.startsWith ".."

structure OutputPlan where
  workingDir : Text
  /-- The folder whose tree is kept in the output folder. -/
  baseDir : Text := []
  outputPath : Text := []
  /-- The folder for all results; when empty, each lies beside its source. -/
  outputDir : Text := []
deriving DecidableEq, Repr

namespace OutputPlan

/-- The name of a C file below the output folder: the way of its source from the base folder, or else the last
name of the source. -/
def mirroredName (plan : OutputPlan) (source : Text) : Text :=
  let way := if plan.baseDir.isEmpty then none else wayBelow? plan.workingDir plan.baseDir source
  replaceSuffix (way.getD (Path.baseName source)) ".c"

/-- The C file of a source, unless it is the source itself. -/
def outputFor (plan : OutputPlan) (source : Text) : Except Text Text :=
  if !plan.outputPath.isEmpty then .ok plan.outputPath
  else
    let output := if plan.outputDir.isEmpty then replaceSuffix source ".c"
      else Path.join plan.outputDir (plan.mirroredName source)
    if Path.absolute plan.workingDir output = Path.absolute plan.workingDir source then
      .error (Text.concat ["output ", output, " would overwrite its source"])
    else .ok output

end OutputPlan

def companionPath (output ending : Text) : Text := output.dropEnd ".c" ++ ending

/-- How a source is named: from the base folder when it lies below it. -/
def displayName (workingDir baseDir source : Text) : Text :=
  let base : Text := baseDir.trim
  let path := Path.clean source
  if base.isEmpty then path
  else ((wayBelow? workingDir base path).filter (· ≠ Text.ofString ".")).getD (Path.absolute workingDir path)

end GenericC
