import GenericC.Source.Span
import GenericC.Text.Quoted
import GenericC.Text.Digest
import GenericC.Path

/-! Source files: their content, how it differs from the bytes on disk, and the
lines and columns of its offsets. -/

namespace GenericC

/-- How the content of a file came about: made in memory, or changed while it was read. -/
structure FileFlags where
  bits : UInt8 := 0
deriving DecidableEq, Repr

namespace FileFlags

def virtual : FileFlags := ⟨1⟩
def hadByteOrderMark : FileFlags := ⟨2⟩
def hadCarriageReturns : FileFlags := ⟨4⟩
def wasComposed : FileFlags := ⟨8⟩

def has (flags wanted : FileFlags) : Bool := flags.bits &&& wanted.bits = wanted.bits

def union (a b : FileFlags) : FileFlags := ⟨a.bits ||| b.bits⟩

end FileFlags

/-- How a path is shown: shortened when it is long, from the root, from the base directory, or as its last
name. -/
inductive PathMode
  | auto | absolute | relative | basename
deriving DecidableEq, Repr

namespace PathMode

def name : PathMode → Text
  | auto => "auto"
  | absolute => "absolute"
  | relative => "relative"
  | basename => "basename"

def ofName? (name : Text) : Option PathMode :=
  [auto, absolute, relative, basename].find? fun mode => mode.name = name

/-- The mode that a user asks for; short names will do, and nothing stands for `auto`. -/
def ofFlag? (flag : Text) : Option PathMode :=
  if flag.isEmpty then some auto
  else if flag = Text.ofString "abs" then some absolute
  else if flag = Text.ofString "rel" then some relative
  else if flag = Text.ofString "base" then some basename
  else ofName? flag

def unknownMessage (flag : Text) : Text :=
  Text.concat ["unknown path mode ", flag.quoted, " (want auto, absolute, relative or basename)"]

end PathMode

structure SourceFile where
  path : Text
  content : Text
  flags : FileFlags := {}

namespace SourceFile

def digest (file : SourceFile) : Digest := Digest.ofText file.content

def lineBreaks (file : SourceFile) : List UInt32 :=
  (file.content.zipIdx.filter (·.1 = Text.byte '\n')).map (·.2.toUInt32)

/-- The number of the last line, as a word. -/
def lineCount (file : SourceFile) : UInt32 := file.lineBreaks.length.toUInt32 + 1

/-- The offset of a line with a number, counted from one: it begins behind the newline before it. -/
def lineStart? (file : SourceFile) (number : Nat) : Option Nat :=
  if 1 < number then (file.lineBreaks[number - 2]?).map (·.toNat + 1) else some 0

def lineStop? (file : SourceFile) (number : Nat) : Option Nat :=
  if number ≤ file.lineBreaks.length then (file.lineBreaks[number - 1]?).map (·.toNat) else some file.content.length

/-- The line with a number without its newline; empty when there is none. -/
def line? (file : SourceFile) (number : Nat) : Option Text :=
  if number = 0 || file.lineBreaks.length + 1 < number then some []
  else do
    let start ← file.lineStart? number
    let stop ← file.lineStop? number
    if stop < start then some [] else Text.slice? file.content start stop

def line (file : SourceFile) (number : UInt32) : Text := (file.line? number.toNat).getD []

/-- The line and column of an offset: an offset lies on the line that its preceding newlines begin. -/
def position? (file : SourceFile) (offset : UInt32) : Option Position :=
  let breaks := file.lineBreaks
  let before := (breaks.takeWhile (· < offset)).length
  let start := if 0 < before then (breaks[before - 1]?).map (· + 1) else some 0
  start.map fun start => ⟨(before + 1).toUInt32, offset - start + 1⟩

def position (file : SourceFile) (offset : UInt32) : Position := (file.position? offset).getD ⟨0, 0⟩

/-- Long paths from the root are shown by their last name in mode `auto`. -/
def longPathLength : Nat := 40

/-- A path from the base directory; a path outside it is given from the root. -/
def relativePath (workingDir path base : Text) : Text :=
  let target := Path.absolute workingDir path
  match Path.relative? (Path.absolute workingDir base) target with
  | none => Path.clean target
  | some way => if Path.leavesStart way then Path.clean target else Path.clean way

def displayPath (workingDir : Text) (mode : Option PathMode) (base : Text) (file : SourceFile) : Text :=
  match mode with
  | none => file.path
  | some .absolute => Path.absolute workingDir file.path
  | some .relative => relativePath workingDir file.path (if base.isEmpty then workingDir else base)
  | some .basename => Path.baseName file.path
  | some .auto =>
    if Path.isAbsolute file.path && longPathLength ≤ file.path.length then Path.baseName file.path
    else file.path

end SourceFile

/-- The composed form of a text, in which marks are one character with the letter they stand on. -/
class Composition where
  composed : Text → Text

namespace FileContent

def dropByteOrderMark (content : Text) : Text × Bool :=
  match content with
  | 0xEF :: 0xBB :: 0xBF :: rest => (rest, true)
  | _ => (content, false)

private def joinLineEndsLoop : List UInt8 → Text → Text
  | done, [] => done.reverse
  | done, 13 :: 10 :: rest => joinLineEndsLoop (10 :: done) rest
  | done, b :: rest => joinLineEndsLoop (b :: done) rest

def joinLineEnds (content : Text) : Text × Bool :=
  let joined := joinLineEndsLoop [] content
  (joined, joined.length ≠ content.length)

def compose [Composition] (content : Text) : Text × Bool :=
  let composed := Composition.composed content
  (composed, composed ≠ content)

/-- What the compiler sees of the bytes of a file on disk. -/
def normalize [Composition] (raw : Text) : Text × FileFlags :=
  let (content, marked) := dropByteOrderMark raw
  let (content, joined) := joinLineEnds content
  let (content, composed) := compose content
  let flag := fun (on : Bool) (flags : FileFlags) => if on then flags else {}
  (content, ((flag marked .hadByteOrderMark).union (flag joined .hadCarriageReturns)).union
    (flag composed .wasComposed))

end FileContent
end GenericC
