import GenericC.Source.Span

/-! What the compiler has to say about a source: problems, warnings and remarks, each
with the place it concerns, related places and proposed edits. -/

namespace GenericC

/-- How bad a diagnostic is. From `error` on a compilation has failed. -/
structure Severity where
  rank : UInt8
deriving DecidableEq, Repr

namespace Severity

def info : Severity := ⟨0⟩
def warning : Severity := ⟨1⟩
def error : Severity := ⟨2⟩

def isError (severity : Severity) : Bool := error.rank ≤ severity.rank

def name (severity : Severity) : Text :=
  if severity = info then "INFO"
  else if severity = warning then "WARNING"
  else if severity = error then "ERROR"
  else "UNKNOWN"

end Severity

/-- The number of a kind of diagnostic. Its thousands tell which part of the compiler it comes from. -/
structure DiagnosticCode where
  number : UInt16
deriving DecidableEq, Repr

namespace DiagnosticCode

def unknown : DiagnosticCode := ⟨0⟩
def unknownCharacter : DiagnosticCode := ⟨1001⟩
def unterminatedString : DiagnosticCode := ⟨1002⟩
def unterminatedComment : DiagnosticCode := ⟨1003⟩
def badNumber : DiagnosticCode := ⟨1004⟩
def tokenTooLong : DiagnosticCode := ⟨1005⟩
def unterminatedCharacter : DiagnosticCode := ⟨1006⟩
def emptyCharacter : DiagnosticCode := ⟨1007⟩
def unexpectedToken : DiagnosticCode := ⟨2001⟩
def unclosedParen : DiagnosticCode := ⟨2002⟩
def unclosedBrace : DiagnosticCode := ⟨2003⟩
def unclosedBracket : DiagnosticCode := ⟨2004⟩
def unclosedAngle : DiagnosticCode := ⟨2005⟩
def expectedSemicolon : DiagnosticCode := ⟨2006⟩
def expectedIdentifier : DiagnosticCode := ⟨2007⟩
def expectedType : DiagnosticCode := ⟨2008⟩
def expectedExpression : DiagnosticCode := ⟨2009⟩
def expectedRightBracket : DiagnosticCode := ⟨2010⟩
def unexpectedTopLevel : DiagnosticCode := ⟨2011⟩
def tooDeep : DiagnosticCode := ⟨2012⟩
def duplicateTypeParam : DiagnosticCode := ⟨2013⟩
def emptyTypeParams : DiagnosticCode := ⟨2014⟩
def notGeneric : DiagnosticCode := ⟨4001⟩
def arityMismatch : DiagnosticCode := ⟨4002⟩
def danglingInstantiation : DiagnosticCode := ⟨4003⟩
def depthExceeded : DiagnosticCode := ⟨4004⟩
def mangleCollision : DiagnosticCode := ⟨4005⟩
def cannotRead : DiagnosticCode := ⟨5001⟩
def cannotWrite : DiagnosticCode := ⟨5002⟩
def timings : DiagnosticCode := ⟨7001⟩

def titles : List (UInt16 × String) := [
  (0, "Unknown error"),
  (1000, "Lexical information"),
  (1001, "Unknown character"),
  (1002, "Unterminated string literal"),
  (1003, "Unterminated block comment"),
  (1004, "Invalid numeric literal"),
  (1005, "Token too long"),
  (1006, "Unterminated character literal"),
  (1007, "Empty character literal"),
  (2000, "Syntax information"),
  (2001, "Unexpected token"),
  (2002, "Unclosed parenthesis"),
  (2003, "Unclosed brace"),
  (2004, "Unclosed bracket"),
  (2005, "Unclosed angle bracket"),
  (2006, "Expected semicolon"),
  (2007, "Expected identifier"),
  (2008, "Expected type"),
  (2009, "Expected expression"),
  (2010, "Expected ']'"),
  (2011, "Unexpected top-level construct"),
  (2012, "Nesting too deep"),
  (2013, "Duplicate type parameter"),
  (2014, "Empty type parameter list"),
  (4000, "Monomorphization information"),
  (4001, "Type arguments on a non-generic declaration"),
  (4002, "Type argument count mismatch"),
  (4003, "Instantiation without declaration"),
  (4004, "Instantiation depth exceeded"),
  (4005, "Mangled name collision"),
  (5001, "I/O load file error"),
  (5002, "I/O write file error"),
  (6000, "Project information"),
  (6001, "Invalid project manifest"),
  (7000, "Observability information"),
  (7001, "Pipeline timings")]

def id (code : DiagnosticCode) : Text :=
  let n := code.number.toNat
  let family : Option String :=
    if n / 1000 = 1 then some "LEX"
    else if n / 1000 = 2 then some "SYN"
    else if n / 1000 = 4 then some "MONO"
    else if n / 1000 = 5 then some "IO"
    else if n / 1000 = 6 then some "PRJ"
    else if n / 1000 = 7 then some "OBS"
    else none
  match family with
  | some letters => Text.ofString letters ++ Text.ofNat n
  | none => "E0000"

def title (code : DiagnosticCode) : Text :=
  match titles.find? (fun row => row.1 = code.number) with
  | some row => row.2
  | none => "Unknown error"

def render (code : DiagnosticCode) : Text :=
  Text.ofString "[" ++ code.id ++ Text.ofString "]: " ++ code.title

end DiagnosticCode

/-- A related place, such as the first use of something. -/
structure Note where
  span : Span
  message : Text
deriving DecidableEq, Repr

/-- The text that should stand in place of a span; an empty span is an insertion. -/
structure Edit where
  span : Span
  text : Text
deriving DecidableEq, Repr

structure Fix where
  title : Text
  edits : List Edit
deriving DecidableEq, Repr

structure Diagnostic where
  severity : Severity
  code : DiagnosticCode
  message : Text
  span : Span
  notes : List Note := []
  fixes : List Fix := []
deriving DecidableEq, Repr

namespace Diagnostic

def ofError (code : DiagnosticCode) (span : Span) (message : Text) : Diagnostic :=
  { severity := .error, code, message, span }

def ofWarning (code : DiagnosticCode) (span : Span) (message : Text) : Diagnostic :=
  { severity := .warning, code, message, span }

def withNote (diagnostic : Diagnostic) (span : Span) (message : Text) : Diagnostic :=
  { diagnostic with notes := diagnostic.notes ++ [⟨span, message⟩] }

def withFix (diagnostic : Diagnostic) (title : Text) (edits : List Edit) : Diagnostic :=
  { diagnostic with fixes := diagnostic.fixes ++ [⟨title, edits⟩] }

def isError (diagnostic : Diagnostic) : Bool := diagnostic.severity.isError

structure Identity where
  code : DiagnosticCode
  span : Span
  message : Text
deriving DecidableEq, Repr

def identity (diagnostic : Diagnostic) : Identity := ⟨diagnostic.code, diagnostic.span, diagnostic.message⟩

end Diagnostic
end GenericC
