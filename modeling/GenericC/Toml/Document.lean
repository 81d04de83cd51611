import GenericC.Text

/-! Documents of the TOML configuration format: tables of named values, and the record of how their keys
were written. -/

namespace GenericC.Toml

inductive Value
  | text (value : Text)
  | integer (value : Int)
  /-- A number with a fraction or an exponent, as it was written. -/
  | decimal (spelling : Text)
  | truth (value : Bool)
  /-- A date, a time or both, as written. -/
  | moment (spelling : Text)
  | list (items : List Value)
  | table (entries : List (Text × Value))
  /-- The tables that headers in double brackets add one by one. -/
  | tables (items : List (List (Text × Value)))
deriving Repr

abbrev Table := List (Text × Value)

/-- The names that lead to a value from the top. -/
abbrev Key := List Text

inductive Fault
  | encoding
  | character
  | key
  | header
  | value
  | text
  | number
  | moment
  | list
  | table
  | lineEnd
  | repeated (key : Key)
deriving DecidableEq, Repr

namespace Key

def isBareByte (b : UInt8) : Bool := Text.isLetter b || Text.isDigit b || b = Text.byte '_' || b = Text.byte '-'

def escapeByte (b : UInt8) : Text :=
  if b = Text.byte '"' then "\\\""
  else if b = Text.byte '\\' then "\\\\"
  else if b = 8 then "\\b"
  else if b = 9 then "\\t"
  else if b = 10 then "\\n"
  else if b = 12 then "\\f"
  else if b = 13 then "\\r"
  else if b < 32 || b = 127 then Text.concat ["\\u", Text.hexPadded 4 b.toNat]
  else [b]

/-- A name as it is written in a key: in quotes unless it is made of letters, digits, `_` and `-`. -/
def renderName (name : Text) : Text :=
  if !name.isEmpty && name.all isBareByte then name else Text.concat ["\"", name.flatMap escapeByte, "\""]

def render (key : Key) : Text := Text.joinWith "." (key.map renderName)

end Key

def Fault.message : Fault → Text
  | encoding => "invalid UTF-8"
  | character => "control characters are not allowed"
  | key => "expected a key"
  | header => "expected the end of a table name"
  | value => "expected a value"
  | text => "invalid string"
  | number => "invalid number"
  | moment => "invalid date or time"
  | list => "expected ',' or ']' in an array"
  | table => "expected ',' or '\x7d' in an inline table"
  | lineEnd => "expected the end of the line"
  | repeated name => Text.concat ["key '", Key.render name, "' has already been defined"]

namespace Table

def get? (table : Table) (name : Text) : Option Value := (table.find? (·.1 = name)).map (·.2)

/-- Replaces the value of a name in its place, or adds it at the end. -/
def put (table : Table) (name : Text) (value : Value) : Table :=
  if table.any (·.1 = name) then table.map fun entry => if entry.1 = name then (name, value) else entry
  else table ++ [(name, value)]

/-- The table that a key leads to. Of several tables under one key the last counts. -/
def at? (table : Table) : Key → Option Table
  | [] => some table
  | name :: rest =>
    match get? table name with
    | some (.table inner) => at? inner rest
    | some (.tables items) => items.getLast?.bind fun inner => at? inner rest
    | _ => none

def update (change : Table → Except Fault Table) (table : Table) : Key → Except Fault Table
  | [] => change table
  | name :: rest =>
    match get? table name with
    | some (.table inner) => do return put table name (.table (← update change inner rest))
    | some (.tables items) =>
      match items.getLast? with
      | some inner => do return put table name (.tables (items.dropLast ++ [← update change inner rest]))
      | none => .error (.repeated [name])
    | _ => .error (.repeated [name])

def isDefined (table : Table) : Key → Bool
  | [] => true
  | [name] => (get? table name).isSome
  | name :: rest =>
    match get? table name with
    | some (.table inner) => isDefined inner rest
    | _ => false

end Table

structure Document where
  root : Table := []
  /-- The keys in the order in which they were written, latest first. A header counts as a key. -/
  written : List Key := []
  /-- The tables that were only made on the way to others, which may still be given a header. -/
  implied : List Key := []
  /-- The keys whose latest value is a list; these may be given another value. -/
  lists : List Key := []
deriving Repr

namespace Document

def keys (doc : Document) : List Key := doc.written.reverse

def imply (doc : Document) (key : Key) : Document :=
  if doc.implied.contains key then doc else { doc with implied := key :: doc.implied }

def settle (doc : Document) (key : Key) : Document := { doc with implied := doc.implied.filter (· ≠ key) }

def write (doc : Document) (key : Key) : Document := { doc with written := key :: doc.written }

/-- Notes whether the value of a name is a list. An empty name stands for the table around it. -/
def note (doc : Document) (context : Key) (name : Text) (isList : Bool) : Document :=
  let key := if name.isEmpty then context else context ++ [name]
  let key := if key.isEmpty then [[]] else key
  let others := doc.lists.filter (· ≠ key)
  { doc with lists := if isList then key :: others else others }

/-- Gives a name in a table its value. A name can be given one only once, but for implied tables, which keep
what they hold, and lists. -/
def set (doc : Document) (context : Key) (name : Text) (value : Value) : Except Fault Document := do
  let key := context ++ [name]
  let some table := doc.root.at? context | throw (.repeated context)
  if (table.get? name).isNone then
    return { doc with root := ← doc.root.update (fun table => return table.put name value) context }
  else if doc.lists.contains key then
    let root ← doc.root.update (fun table => return table.put name value) context
    return { doc.settle key with root }
  else if doc.implied.contains key then return doc.settle key
  else throw (.repeated key)

/-- Makes the missing tables on the way to a key. -/
def reach (doc : Document) (done : Key) : Key → Except Fault Document
  | [] => .ok doc
  | name :: rest => do
    let key := done ++ [name]
    let some table := doc.root.at? done | throw (.repeated done)
    let doc ←
      if (table.get? name).isSome then pure doc
      else
        let root ← doc.root.update (fun table => return table.put name (.table [])) done
        pure { doc.imply key with root }
    reach doc key rest

/-- Opens the table of a header, or one more table when the key stands for several. -/
def enter (doc : Document) (key : Key) (several : Bool) : Except Fault Document := do
  let context := key.dropLast
  let name := key.getLast?.getD []
  let doc ← doc.reach [] context
  if several then
    let add (table : Table) : Except Fault Table :=
      match table.get? name with
      | none => .ok (table.put name (.tables [[]]))
      | some (.tables items) => .ok (table.put name (.tables (items ++ [[]])))
      | some _ => .error (.repeated key)
    return { doc with root := ← doc.root.update add context }
  else doc.set context name (.table [])

/-- Opens the tables that a dotted key names in front of its last part. -/
def enterAll (doc : Document) (context : Key) : Key → Except Fault (Document × Key)
  | [] => .ok (doc, context)
  | name :: rest => do
    let inner := context ++ [name]
    let doc ← (doc.imply inner).enter inner false
    enterAll doc inner rest

end Document

/-- What is made of the bytes of a document. -/
class Reader where
  parse : Text → Except Fault Document

end GenericC.Toml
