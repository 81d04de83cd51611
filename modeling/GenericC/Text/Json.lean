import GenericC.Text.Utf8

/-! JSON documents as the tools print them: object members in the given order,
and strings that are also safe inside HTML. -/

namespace GenericC

inductive Json
  | bool (value : Bool)
  | number (digits : Text)
  | string (value : Text)
  | array (items : List Json)
  | object (members : List (Text × Json))

namespace Json

private def escapeRune (spelling : Text) (rune : Text.Rune) : Text :=
  if !rune.valid then Text.ofCode Text.Rune.replacementCode
  else if rune.code = 34 then "\\\""
  else if rune.code = 92 then "\\\\"
  else if rune.code = 8 then "\\b"
  else if rune.code = 12 then "\\f"
  else if rune.code = 10 then "\\n"
  else if rune.code = 13 then "\\r"
  else if rune.code = 9 then "\\t"
  else if rune.code < 0x20 || rune.code = 0x3C || rune.code = 0x3E || rune.code = 0x26 || rune.code = 0x2028 ||
      rune.code = 0x2029 then Text.ofString "\\u" ++ Text.hexPadded 4 rune.code
  else spelling

private def escapeLoop : List Text.Rune → Text → List Text → Text
  | [], _, done => done.reverse.flatten
  | rune :: rest, t, done =>
    escapeLoop rest (t.drop rune.size) (escapeRune (t.take rune.size) rune :: done)

/-- A JSON string. Controls, the marks of HTML and the two Unicode line separators are escaped, and a
malformed byte becomes the replacement character. -/
def encodeString (t : Text) : Text :=
  Text.byte '"' :: escapeLoop t.runes t [] ++ [Text.byte '"']

def ofNat (n : Nat) : Json := number (Text.ofNat n)

def ofInt (n : Int) : Json := number (Text.ofInt n)

mutual
def compact : Json → Text
  | bool value => if value then "true" else "false"
  | number digits => digits
  | string value => encodeString value
  | array items => Text.ofString "[" ++ compactItems items ++ Text.ofString "]"
  | object members => Text.ofString "\x7b" ++ compactMembers members ++ Text.ofString "\x7d"

def compactItems : List Json → Text
  | [] => []
  | [item] => compact item
  | item :: next :: rest => compact item ++ Text.ofString "," ++ compactItems (next :: rest)

def compactMembers : List (Text × Json) → Text
  | [] => []
  | [(name, value)] => encodeString name ++ Text.ofString ":" ++ compact value
  | (name, value) :: next :: rest =>
    encodeString name ++ Text.ofString ":" ++ compact value ++ Text.ofString "," ++ compactMembers (next :: rest)
end

def newline (level : Nat) : Text := Text.byte '\n' :: Text.spaces (2 * level)

mutual
/-- The document over several lines, indented by two blanks a level. Empty arrays and objects stay on
one line. -/
def indented (level : Nat) : Json → Text
  | bool value => if value then "true" else "false"
  | number digits => digits
  | string value => encodeString value
  | array items =>
    if items.isEmpty then "[]"
    else Text.ofString "[" ++ indentedItems (level + 1) items ++ newline level ++ Text.ofString "]"
  | object members =>
    if members.isEmpty then "\x7b\x7d"
    else Text.ofString "\x7b" ++ indentedMembers (level + 1) members ++ newline level ++ Text.ofString "\x7d"

def indentedItems (level : Nat) : List Json → Text
  | [] => []
  | [item] => newline level ++ indented level item
  | item :: next :: rest =>
    newline level ++ indented level item ++ Text.ofString "," ++ indentedItems level (next :: rest)

def indentedMembers (level : Nat) : List (Text × Json) → Text
  | [] => []
  | [(name, value)] => newline level ++ encodeString name ++ Text.ofString ": " ++ indented level value
  | (name, value) :: next :: rest =>
    newline level ++ encodeString name ++ Text.ofString ": " ++ indented level value ++ Text.ofString "," ++
      indentedMembers level (next :: rest)
end

def document (value : Json) : Text := indented 0 value ++ [Text.byte '\n']

/-- An object from groups of members, some of which may be left out. -/
def ofGroups (groups : List (List (Text × Json))) : Json := object groups.flatten

/-- A member that is left out when its text is empty. -/
def optionalString (name value : Text) : List (Text × Json) :=
  if value.isEmpty then [] else [(name, string value)]

def optionalNat (name : Text) (value : Nat) : List (Text × Json) :=
  if value = 0 then [] else [(name, ofNat value)]

def optionalArray (name : Text) (items : List Json) : List (Text × Json) :=
  if items.isEmpty then [] else [(name, array items)]

end Json
end GenericC
