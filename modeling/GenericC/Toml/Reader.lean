import GenericC.Toml.Scalar

/-! Reading documents. -/

namespace GenericC.Toml

structure ReaderState where
  rest : Text
  doc : Document := {}
deriving Repr

/-- A step of reading, which takes text from the front and adds to the document. -/
abbrev Read := StateT ReaderState (Except Fault)

namespace Read

def next? : Read (Option UInt8) := return (← get).rest.head?

def skip (count : Nat) : Read Unit := modify fun state => { state with rest := state.rest.drop count }

def skipGap : Read Unit := modify fun state => { state with rest := state.rest.dropWhile isGap }

def accept (start : Text) : Read Bool := do
  match Text.dropStart? (← get).rest start with
  | none => return false
  | some rest => modify fun state => { state with rest }; return true

def expect (start : Text) (fault : Fault) : Read Unit := do if !(← accept start) then throw fault

def dropSpace (inComment : Bool) : Text → Text
  | [] => []
  | b :: rest =>
    if inComment then dropSpace (b ≠ 10) rest
    else if isGap b || isLineBreak b then dropSpace false rest
    else if b = Text.byte '#' then dropSpace true rest
    else b :: rest

def skipSpace : Read Unit := modify fun state => { state with rest := dropSpace false state.rest }

def change (step : Document → Except Fault Document) : Read Unit := do
  let state ← get
  set { state with doc := ← step state.doc }

def lineEnd : Read Unit := do
  skipGap
  match ← next? with
  | none => return ()
  | some b => if !isLineBreak b && b ≠ Text.byte '#' then throw .lineEnd

/-- A text whose opening quotes are already read. -/
def text (quote : UInt8) (block : Bool) : Read Text := do
  match readText? quote block (← get).rest with
  | none => throw .text
  | some (value, rest) => modify fun state => { state with rest }; return value

def keyPart : Read Text := do
  if ← accept "\"" then text (Text.byte '"') false
  else if ← accept "'" then text (Text.byte '\'') false
  else
    let name := (← get).rest.takeWhile Key.isBareByte
    if name.isEmpty then throw .key
    skip name.length
    return name

/-- A key with dots. The first argument bounds the number of its parts. -/
def keyParts : Nat → Read Key
  | 0 => throw .key
  | bound + 1 => do
    skipGap
    let name ← keyPart
    skipGap
    if ← accept "." then return name :: (← keyParts bound) else return [name]

def key : Read Key := do keyParts (← get).rest.length

/-- The start of an entry up to its equals sign. Gives the table that the entry goes to and its name there. -/
def entryKey (context : Key) : Read (Key × Text) := do
  let parts ← key
  expect "=" .key
  let state ← get
  let (doc, context) ← state.doc.enterAll context parts.dropLast
  let name := parts.getLast?.getD []
  set { state with doc := doc.write (context ++ [name]) }
  return (context, name)

def assign (context : Key) (name : Text) (value : Value) : Read Unit := do
  change fun doc => doc.set context name value
  let isList := match value with
    | .list _ => true
    | _ => false
  change fun doc => return doc.note context name isList

mutual

/-- The value of a name in a table; `inList` says whether it is an item of a list. -/
def value (context : Key) (name : Text) (inList : Bool) : Nat → Read Value
  | 0 => throw .value
  | bound + 1 => do
    skipGap
    if ← accept "[" then
      change fun doc => return doc.note context name true
      return .list (← items context name bound)
    else if ← accept "\x7b" then
      let inner := context ++ [name]
      change fun doc => (doc.imply inner).enter inner inList
      return .table (← entries inner true bound)
    else if ← accept "\"\"\"" then return .text (← text (Text.byte '"') true)
    else if ← accept "\"" then return .text (← text (Text.byte '"') false)
    else if ← accept "'''" then return .text (← text (Text.byte '\'') true)
    else if ← accept "'" then return .text (← text (Text.byte '\'') false)
    else if ← accept "true" then return .truth true
    else if ← accept "false" then return .truth false
    else
      let (result, rest) ← readNumber (← get).rest
      modify fun state => { state with rest }
      return result

/-- The items of a list up to its closing bracket. A comma may stand behind the last one. -/
def items (context : Key) (name : Text) : Nat → Read (List Value)
  | 0 => throw .list
  | bound + 1 => do
    skipSpace
    if ← accept "]" then return []
    let item ← value context name true bound
    skipSpace
    if ← accept "," then return item :: (← items context name bound)
    expect "]" .list
    return [item]

/-- The entries of a table in braces up to the closing one, on one line and without a comma behind the last. -/
def entries (inner : Key) (first : Bool) : Nat → Read (List (Text × Value))
  | 0 => throw .table
  | bound + 1 => do
    skipGap
    if first && (← accept "\x7d") then return []
    let (context, name) ← entryKey inner
    let result ← value context name false bound
    assign context name result
    skipGap
    if ← accept "," then return (name, result) :: (← entries inner false bound)
    expect "\x7d" .table
    return [(name, result)]

end

/-- A header in one or two pairs of brackets. Gives the table that it opens. -/
def header : Read Key := do
  let several ← accept "[["
  if !several then expect "[" .header
  let name ← key
  expect (if several then "]]" else "]") .header
  change fun doc => doc.enter name several
  change fun doc => return (doc.note name [] false).write name
  return name

def lines (context : Key) : Nat → Read Unit
  | 0 => throw .value
  | bound + 1 => do
    skipSpace
    match ← next? with
    | none => return ()
    | some b =>
      if b = Text.byte '[' then
        let context ← header
        lineEnd
        lines context bound
      else
        let (inner, name) ← entryKey context
        let result ← value inner name false (2 * (← get).rest.length + 2)
        assign inner name result
        lineEnd
        lines context bound

end Read

/-- Whether only tabs and line breaks stand for control characters, and no carriage return on its own. -/
def controlsFit : Text → Bool
  | [] => true
  | b :: rest =>
    (if b = 13 then rest.head? = some 10 else 32 ≤ b && b ≠ 127 || b = 9 || b = 10) && controlsFit rest

def dropByteOrderMark (t : Text) : Text :=
  match t with
  | 0xFF :: 0xFE :: rest => rest
  | 0xFE :: 0xFF :: rest => rest
  | 0xEF :: 0xBB :: 0xBF :: rest => rest
  | t => t

def parse (t : Text) : Except Fault Document :=
  let t := dropByteOrderMark t
  if !t.isValidUtf8 then .error .encoding
  else if !controlsFit t then .error .character
  else do
    let (_, state) ← (Read.lines [] (t.length + 1)).run { rest := t }
    return state.doc

end GenericC.Toml
