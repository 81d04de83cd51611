import GenericC.Path

/-! What a program asks of the files around it. -/

namespace GenericC

inductive FileFault
  | notFound
  | notFolder
  | isFolder
  | alreadyThere
  | nameTooLong
  | badName
  | other (reason : Text)
deriving DecidableEq, Repr

def FileFault.message : FileFault → Text
  | notFound => "no such file or directory"
  | notFolder => "not a directory"
  | isFolder => "is a directory"
  | alreadyThere => "file exists"
  | nameTooLong => "file name too long"
  | badName => "invalid argument"
  | other reason => reason

structure FileError where
  action : Text
  path : Text
  fault : FileFault
deriving DecidableEq, Repr

def FileError.message (error : FileError) : Text :=
  Text.concat [error.action, " ", error.path, ": ", error.fault.message]

inductive EntryKind
  | file
  | folder
deriving DecidableEq, Repr

class Files (m : Type → Type) where
  /-- The folder that paths without a leading slash start from. -/
  workingDir : m Text
  stat : Text → m (Except FileError EntryKind)
  read : Text → m (Except FileError Text)
  write : Text → Text → m (Except FileError Unit)
  makeFolders : Text → m (Except FileError Unit)
  removeAll : Text → m Unit
  /-- The files in a folder and in those folders below it whose name `enter` lets pass. -/
  filesBelow : Text → (enter : Text → Bool) → m (Except FileError (List Text))

end GenericC
