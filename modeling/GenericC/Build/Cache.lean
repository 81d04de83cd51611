import GenericC.Compile
import GenericC.Files
import GenericC.Version

/-! Compiled results kept on disk, found again by the content of the source and by every setting that the
results depend on. -/

namespace GenericC

structure CacheEntry where
  path : Text
  content : Text
  output : Option Text
  header : Option Text
  diagnostics : List Diagnostic
  structs : Nat
  funcs : Nat
deriving DecidableEq, Repr

/-- Entries as the bytes of files. Bytes that are not those of an entry are none. -/
class EntryCodec where
  encode : CacheEntry → Text
  decode? : Text → Option CacheEntry

namespace CacheEntry

/-- What is kept of a result. Timings tell about one run and are left out. -/
def ofResult (file : SourceFile) (result : CompileResult) : CacheEntry :=
  { path := file.path
    content := file.digest.hex
    output := result.output.filter (!·.isEmpty)
    header := result.header.filter (!·.isEmpty)
    diagnostics := result.bag.items.filter (·.code ≠ .timings)
    structs := result.structs
    funcs := result.funcs }

def moveTo (number : UInt32) (item : Diagnostic) : Diagnostic :=
  let move (span : Span) : Span := { span with file := number }
  { item with
    span := move item.span
    notes := item.notes.map fun note => { note with span := move note.span }
    fixes := item.fixes.map fun fix =>
      { fix with edits := fix.edits.map fun edit => { edit with span := move edit.span } } }

def restore (entry : CacheEntry) (settings : CompileSettings) (number : UInt32) : CompileResult :=
  { bag := (Bag.empty settings.maxDiagnostics).reportAll (entry.diagnostics.map (moveTo number))
    output := entry.output
    header := entry.header
    structs := entry.structs
    funcs := entry.funcs }

end CacheEntry

def CompileSettings.cacheFields (settings : CompileSettings) (path : Text) : List Text :=
  let flag (on : Bool) : Text := if on then "true" else "false"
  [({} : BuildInfo).version, Text.ofInt settings.maxDepth, flag settings.emit.noComment, settings.emit.comment,
    flag settings.header, settings.guardFor path]

def CompileSettings.cacheKey (settings : CompileSettings) (file : SourceFile) : Digest :=
  Digest.combine file.digest [Digest.ofFields (settings.cacheFields file.path)]

structure Cache where
  folder : Text
deriving DecidableEq, Repr

namespace Cache

def unitsFolder (cache : Cache) : Text := Path.join cache.folder "units"

def entryPath (cache : Cache) (key : Digest) : Text := Path.join cache.unitsFolder (Text.concat [key.hex, ".mp"])

variable {m : Type → Type} [Monad m] [Files m] [EntryCodec]

def openAt (folder : Text) : m (Except FileError Cache) := do
  return (← Files.makeFolders folder).map fun _ => ⟨folder⟩

/-- The entry under a key. Whatever cannot be read counts as missing. -/
def find? (cache : Cache) (key : Digest) : m (Option CacheEntry) := do
  match ← Files.read (cache.entryPath key) with
  | .ok bytes => return EntryCodec.decode? bytes
  | .error _ => return none

def store (cache : Cache) (key : Digest) (entry : CacheEntry) : m (Except FileError Unit) := do
  match ← Files.makeFolders cache.unitsFolder with
  | .error error => return .error error
  | .ok _ => Files.write (cache.entryPath key) (EntryCodec.encode entry)

def clear (cache : Cache) : m (Except FileError Unit) := do
  match ← Files.stat cache.folder with
  | .error _ => return .ok ()
  | .ok _ =>
    Files.removeAll cache.folder
    Files.makeFolders cache.folder

end Cache

/-- A result, whether it was taken from the cache, and why it could not be put there. -/
structure CachedResult where
  result : CompileResult
  cached : Bool := false
  problem : Option Text := none

/-- Compiles a file unless its result is in the cache. Results without errors are put there. -/
def compileCached {m : Type → Type} [Monad m] [Files m] [EntryCodec] (cache : Option Cache) (settings : CompileSettings)
    (number : UInt32) (file : SourceFile) : m CachedResult := do
  match cache with
  | none => return { result := compileFile settings number file }
  | some cache =>
    let key := settings.cacheKey file
    let found ← cache.find? key
    match found.filter (·.content = file.digest.hex) with
    | some entry => return { result := entry.restore settings number, cached := true }
    | none =>
      let result := compileFile settings number file
      if result.failed then return { result }
      else match ← cache.store key (.ofResult file result) with
        | .ok _ => return { result }
        | .error error =>
          return { result, problem := some (Text.concat ["driver: cache ", file.path, ": ", error.message]) }

end GenericC
