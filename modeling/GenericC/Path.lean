import GenericC.Text

/-! File paths with forward slashes, handled as text alone. -/

namespace GenericC.Path

def slash : UInt8 := Text.byte '/'

def isAbsolute (path : Text) : Bool := path.head? = some slash

def names (path : Text) : List Text := (path.splitByte slash).filter (fun name => !name.isEmpty)

/-- One name added to a normal list of names, given last first. `..` takes back a name; at the root it has
no effect, and elsewhere it stays when there is no name to take back. -/
def addName (rooted : Bool) (kept : List Text) (name : Text) : List Text :=
  if name = Text.ofString "." then kept
  else if name = Text.ofString ".." then
    match kept with
    | [] => if rooted then [] else [name]
    | last :: rest => if last = Text.ofString ".." then name :: kept else rest
  else name :: kept

/-- The names of a path without `.` and with `..` only in front, where nothing is left to take back. -/
def normalNames (rooted : Bool) (path : Text) : List Text :=
  ((names path).foldl (addName rooted) []).reverse

def joinNames (parts : List Text) : Text := Text.joinWith [slash] parts

/-- The shortest path with the same meaning. -/
def clean (path : Text) : Text :=
  let parts := normalNames (isAbsolute path) path
  if isAbsolute path then slash :: joinNames parts
  else if parts.isEmpty then "." else joinNames parts

/-- Two paths one after the other; an empty one is left out. -/
def join (first second : Text) : Text :=
  if first.isEmpty then (if second.isEmpty then [] else clean second)
  else if second.isEmpty then clean first
  else clean (first ++ slash :: second)

def baseName (path : Text) : Text :=
  if path.isEmpty then "."
  else match (names path).getLast? with
    | none => [slash]
    | some name => name

def directory (path : Text) : Text := clean (path.take (path.afterLast (· = slash)))

/-- The end of the last name from its last dot on. -/
def suffix (path : Text) : Text :=
  let name : Text := path.drop (path.afterLast (· = slash))
  match name.afterLast (· = Text.byte '.') with
  | 0 => []
  | after + 1 => name.drop after

def absolute (current path : Text) : Text :=
  if isAbsolute path then clean path else join current path

/-- A path from the root and the folders around it, innermost first. -/
def ancestors (path : Text) : List Text :=
  let parts := names path
  (List.range (parts.length + 1)).reverse.map fun count => slash :: joinNames (parts.take count)

def commonRest : List Text → List Text → List Text × List Text
  | a :: as, b :: bs => if a = b then commonRest as bs else (a :: as, b :: bs)
  | as, bs => (as, bs)

/-- The way from one path to another, if one is known without the disk. -/
def relative? (source target : Text) : Option Text :=
  let start := clean source
  let finish := clean target
  if start = finish then some "."
  else
    let startNames := if start = Text.ofString "." then [] else names start
    if (isAbsolute start) != (isAbsolute finish) then none
    else
      let (up, down) := commonRest startNames (names finish)
      if up.head? = some (Text.ofString "..") && !down.isEmpty then none
      else some (joinNames (up.map (fun _ => Text.ofString "..") ++ down))

def leavesStart (path : Text) : Bool := path = Text.ofString ".." || path.startsWith (Text.ofString "../")

end GenericC.Path
