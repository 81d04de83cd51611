import GenericC.Files

/-! Files as a value: a map from places to contents. A place is the list of names that lead to it from the
root. -/

namespace GenericC

structure Disk where
  /-- What lies at each place; nothing for a folder. The root is not listed. -/
  entries : List (List Text × Option Text) := []
  workingDir : Text := [Path.slash]
deriving DecidableEq, Repr

namespace Disk

def longestName : Nat := 255

def entry? (disk : Disk) (place : List Text) : Option (Option Text) :=
  if place = [] then some none else (disk.entries.find? (·.1 = place)).map (·.2)

def set (disk : Disk) (place : List Text) (content : Option Text) : Disk :=
  { disk with entries := (place, content) :: disk.entries.filter (·.1 ≠ place) }

def step (disk : Disk) (place : List Text) (name : Text) : Except FileFault (List Text) :=
  match disk.entry? place with
  | none => .error .notFound
  | some (some _) => .error .notFolder
  | some none =>
    if name = Text.ofString "." then .ok place
    else if name = Text.ofString ".." then .ok place.dropLast
    else if longestName < name.length then .error .nameTooLong
    else .ok (place ++ [name])

def endsInSlash (path : Text) : Bool := path.getLast? = some Path.slash

/-- The place that a path leads to; whether anything lies there is left open. -/
def place (disk : Disk) (path : Text) : Except FileFault (List Text) :=
  if path.isEmpty then .error .notFound
  else if path.contains 0 then .error .badName
  else (Path.names path).foldlM disk.step (if Path.isAbsolute path then [] else Path.names disk.workingDir)

/-- What a path leads to. A path that ends in a slash only leads to folders. -/
def look (disk : Disk) (path : Text) : Except FileFault (List Text × Option Text) := do
  let place ← disk.place path
  match disk.entry? place with
  | none => throw .notFound
  | some none => return (place, none)
  | some (some content) => if endsInSlash path then throw .notFolder else return (place, some content)

def kind (disk : Disk) (path : Text) : Except FileFault EntryKind := do
  let (_, content) ← disk.look path
  return if content.isSome then .file else .folder

def read (disk : Disk) (path : Text) : Except FileError Text :=
  match disk.look path with
  | .error fault => .error ⟨"open", path, fault⟩
  | .ok (_, none) => .error ⟨"read", path, .isFolder⟩
  | .ok (_, some content) => .ok content

def namesFolder (path : Text) : Bool :=
  endsInSlash path ||
    (Path.names path).getLast?.any fun name => name = Text.ofString "." || name = Text.ofString ".."

def write (disk : Disk) (path content : Text) : Except FileFault Disk := do
  let place ← disk.place path
  let parent ← disk.entry? place.dropLast |>.elim (throw FileFault.notFound) pure
  if parent.isSome then throw .notFolder
  if namesFolder path || disk.entry? place = some none then throw .isFolder
  return disk.set place (some content)

def makeFolder (disk : Disk) (path : Text) : Except FileFault Disk := do
  let place ← disk.place path
  match disk.entry? place.dropLast, disk.entry? place with
  | none, _ => throw .notFound
  | some (some _), _ => throw .notFolder
  | some none, some _ => throw .alreadyThere
  | some none, none => return disk.set place none

/-- The paths of the folders around a path, outermost first and each with a slash at its end, and then the path
itself. -/
def pathsTo (path : Text) : List Text :=
  let stem := path.dropWhileEnd (· = Path.slash)
  let ends := (List.range stem.length).filter fun n => stem[n]? = some Path.slash && stem[n + 1]? ≠ some Path.slash
  ends.map (fun n => path.take (n + 1)) ++ [path]

def makeAll (disk : Disk) : List Text → Except FileError Disk
  | [] => .ok disk
  | path :: rest =>
    match disk.kind path with
    | .ok .folder => makeAll disk rest
    | .ok .file => .error ⟨"mkdir", path, .notFolder⟩
    | .error _ =>
      match disk.makeFolder path with
      | .ok disk => makeAll disk rest
      | .error fault => .error ⟨"mkdir", path, fault⟩

/-- Makes a folder and those around it; nothing is done when there is one already. -/
def makeFolders (disk : Disk) (path : Text) : Except FileError Disk :=
  match disk.kind path with
  | .ok .folder => .ok disk
  | .ok .file => .error ⟨"mkdir", path, .notFolder⟩
  | .error _ => disk.makeAll (pathsTo path)

def removeAll (disk : Disk) (path : Text) : Disk :=
  match disk.place path with
  | .error _ => disk
  | .ok place => { disk with entries := disk.entries.filter fun entry => !place.isPrefixOf entry.1 }

/-- The files below a place whose folders on the way `enter` lets pass, each with the names that lead to it. -/
def namesBelow (disk : Disk) (place : List Text) (enter : Text → Bool) : List (List Text) :=
  disk.entries.filterMap fun (names, content) =>
    if content.isSome && place.isPrefixOf names && (names.drop place.length).dropLast.all enter then
      some (names.drop place.length)
    else none

def filesBelow (disk : Disk) (path : Text) (enter : Text → Bool) : Except FileError (List Text) :=
  match disk.look path with
  | .error fault => .error ⟨"lstat", path, fault⟩
  | .ok (place, _) => .ok ((disk.namesBelow place enter).map fun names => Path.join path (Path.joinNames names))

end Disk

abbrev DiskM := StateM Disk

instance : Files DiskM where
  workingDir := do return (← get).workingDir
  stat path := do return ((← get).kind path).mapError fun fault => ⟨"stat", path, fault⟩
  read path := do return (← get).read path
  write path content := do
    match (← get).write path content with
    | .error fault => return .error ⟨"open", path, fault⟩
    | .ok disk => set disk; return .ok ()
  makeFolders path := do
    match (← get).makeFolders path with
    | .error error => return .error error
    | .ok disk => set disk; return .ok ()
  removeAll path := modify (·.removeAll path)
  filesBelow path enter := do return (← get).filesBelow path enter

end GenericC
