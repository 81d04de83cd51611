import GenericC.Source.File

/-! The files of one compilation, numbered in the order in which they were added. -/

namespace GenericC

structure FileSet where
  files : List SourceFile := []
  /-- The directory that relative paths are shown from; the working directory when empty. -/
  baseDir : Text := []
  workingDir : Text := [Path.slash]

namespace FileSet

def size (fs : FileSet) : Nat := fs.files.length

def base (fs : FileSet) : Text := if fs.baseDir.isEmpty then fs.workingDir else fs.baseDir

/-- Adds a file under the clean form of its path. The same path may be added again and gets a new
number. -/
def add (fs : FileSet) (path content : Text) (flags : FileFlags) : FileSet × UInt32 :=
  ({ fs with files := fs.files ++ [⟨Path.clean path, content, flags⟩] }, fs.size.toUInt32)

def addVirtual (fs : FileSet) (path content : Text) : FileSet × UInt32 := fs.add path content .virtual

def get? (fs : FileSet) (number : UInt32) : Option SourceFile := fs.files[number.toNat]?

/-- The number of the file that was added last under a path. -/
def lookup? (fs : FileSet) (path : Text) : Option UInt32 :=
  let wanted := Path.clean path
  match fs.files.reverse.findIdx? (fun file => file.path = wanted) with
  | none => none
  | some back => some (fs.size - 1 - back).toUInt32

def resolve? (fs : FileSet) (span : Span) : Option (Position × Position) :=
  (fs.get? span.file).map fun file => (file.position span.start, file.position span.stop)

def displayPath? (fs : FileSet) (number : UInt32) (mode : Option PathMode) : Option Text :=
  (fs.get? number).map (·.displayPath fs.workingDir mode fs.base)

end FileSet
end GenericC
