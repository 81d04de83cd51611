import GenericC.Parser.Decls
import GenericC.Token.Lexer

/-! Parsing whole files. -/

namespace GenericC

/-- Names of the standard headers that may be used as types, since those headers are not read. -/
def wellKnownTypes : List Text := [
  "size_t", "ssize_t", "ptrdiff_t", "intptr_t", "uintptr_t", "int8_t", "int16_t", "int32_t", "int64_t",
  "uint8_t", "uint16_t", "uint32_t", "uint64_t", "bool", "FILE", "va_list", "wchar_t", "off_t", "time_t"]

/-- The name that a typedef introduces: the last name outside all brackets before its semicolon. -/
def typedefName? : (depth : Int) → (name : Text) → List Token → Option Text
  | _, _, [] => none
  | depth, name, token :: rest =>
    match token.kind with
    | .leftBrace | .leftParen | .leftBracket => typedefName? (depth + 1) name rest
    | .rightBrace | .rightParen | .rightBracket => typedefName? (depth - 1) name rest
    | .identifier => typedefName? depth (if depth = 0 then token.text else name) rest
    | .semicolon =>
      if depth = 0 then if name.isEmpty then none else some name
      else typedefName? depth name rest
    | .endOfFile => none
    | _ => typedefName? depth name rest

/-- The tags and typedef names of a whole file. They are known from the start, so a type may be used before
it is declared. -/
def declaredTypeNames : List Token → List Text
  | [] => []
  | [_] => []
  | token :: next :: rest =>
    let later := declaredTypeNames (next :: rest)
    if token.kind.isTag then
      if next.kind = .identifier then next.text :: later else later
    else if token.kind = .kwTypedef then (typedefName? 0 [] (next :: rest)).toList ++ later
    else later

/-- The tokens of a file, closed by an end of file if they do not have one. -/
def closeTokens (file : UInt32) (tokens : List Token) : List Token :=
  match tokens.getLast? with
  | some last => if last.kind = .endOfFile then tokens else tokens ++ [{ kind := .endOfFile, span := { file } }]
  | none => [{ kind := .endOfFile, span := { file } }]

namespace ParseState

def start (settings : ParseSettings) (file : UInt32) (tokens : List Token) : ParseState :=
  let closed := closeTokens file tokens
  { settings
    place := { current := closed.headD default, upcoming := closed.tail, last := { file } }
    typeNames := wellKnownTypes ++ declaredTypeNames closed
    errors := settings.currentErrors }

end ParseState

structure Parsed where
  program : Program
  reports : List Diagnostic := []
deriving Repr

/-- Parses tokens in any order; broken declarations are reported and left out. -/
def parseTokens (settings : ParseSettings) (file : UInt32) (tokens : List Token) : Parsed :=
  match Parse.decls (settings.maxNesting + 1) (.start settings file tokens) with
  | .ok decls after => { program := { file, decls }, reports := after.reports.reverse }
  | .error _ after => { program := { file }, reports := after.reports.reverse }

/-- Parses the content of a file. What is wrong with the spelling of tokens is reported first. -/
def parseFile (settings : ParseSettings) (file : UInt32) (content : Text) : Parsed :=
  let (tokens, problems) := tokenize file content
  let parsed := parseTokens settings file tokens
  { parsed with reports := (if settings.reporting then problems else []) ++ parsed.reports }

end GenericC
