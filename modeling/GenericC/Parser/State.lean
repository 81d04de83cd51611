import GenericC.Diagnostic
import GenericC.Token
import GenericC.TypeExpr

/-! The state of a parse and the steps that every rule of the grammar is made of.

A rule either succeeds or stops. It stops with `rejected` when the source breaks the grammar; the other
ways to stop would be faults of the parser itself. The grammar is ambiguous where a name may be a type,
so rules can be tried: whatever is tried is not reported, and a failed trial gives its tokens back. -/

namespace GenericC

inductive Stop
  /-- The tokens do not fit the rule. -/
  | rejected
  /-- A token was asked for past the last one. -/
  | overrun
  /-- The innermost type parameters were dropped where there were none. -/
  | underflow
  /-- A loop went on although it had no token left, or rules nested deeper than allowed. -/
  | exhausted
deriving DecidableEq, Repr

def defaultNesting : Nat := 256

structure ParseSettings where
  /-- Reports from this number of errors on are left out; zero means no limit. -/
  maxErrors : UInt64 := 0
  currentErrors : UInt64 := 0
  maxNesting : Nat := defaultNesting
  reporting : Bool := true
deriving DecidableEq, Repr

structure Place where
  current : Token
  upcoming : List Token
  taken : Nat := 0
  last : Span
deriving Repr

structure ParseState where
  settings : ParseSettings
  place : Place
  typeNames : List Text
  typeParams : List (List Text) := []
  /-- How many trials are going on; nothing is reported in a trial. -/
  quiet : Nat := 0
  depth : Nat := 0
  tooDeep : Bool := false
  errors : UInt64
  reports : List Diagnostic := []
deriving Repr

abbrev Parse := EStateM Stop ParseState

namespace Parse

def peek : Parse Token := return (← get).place.current

/-- The token `count + 1` places ahead; the last one when there are not as many. -/
def peekPast (count : Nat) : Parse Token := do
  let place := (← get).place
  match place.upcoming[count]? with
  | some token => return token
  | none => return place.upcoming.getLastD place.current

def isAt (kind : TokenKind) : Parse Bool := return (← peek).kind = kind

def advance : Parse Token := do
  let state ← get
  let token := state.place.current
  if token.kind = .endOfFile then return token
  match state.place.upcoming with
  | [] => throw .overrun
  | next :: later =>
    set { state with
      place := { current := next, upcoming := later, taken := state.place.taken + 1, last := token.span } }
    return token

def eat (kind : TokenKind) : Parse Bool := do
  if ← isAt kind then
    let _ ← advance
    return true
  return false

/-- Takes a closing angle bracket. Of `>>` only the first half is taken, and the other half stays. -/
def closeAngle : Parse Bool := do
  let state ← get
  let token := state.place.current
  if token.kind = .greater then
    let _ ← advance
    return true
  else if token.kind = .shiftRight then
    let half := token.span.start + 1
    set { state with place := { state.place with
      current := { token with kind := .greater, text := ">", span := { token.span with start := half } }
      last := { token.span with stop := half } } }
    return true
  else return false

def spanFrom (start : Span) : Parse Span := return start.cover (← get).place.last

/-- Where to report a problem with the current token. At the end of the file that is right behind the
last token. -/
def errorSpan : Parse Span := do
  let place := (← get).place
  if place.current.kind = .endOfFile && 0 < place.last.stop then return place.last.atEnd
  return place.current.span

/-- Reports an error, unless this is a trial or there have been too many. -/
def report (problem : Diagnostic) : Parse Unit := do
  let state ← get
  if 0 < state.quiet || !state.settings.reporting then return
  let errors := state.errors + 1
  if state.settings.maxErrors ≠ 0 && state.settings.maxErrors ≤ errors then set { state with errors }
  else set { state with errors, reports := problem :: state.reports }

def reject {α : Type} (code : DiagnosticCode) (span : Span) (message : Text) : Parse α := do
  report (.ofError code span message)
  throw .rejected

def rejectHere {α : Type} (code : DiagnosticCode) (message : Text) : Parse α := do
  reject code (← errorSpan) message

/-- The tokens whose absence is mended by inserting them behind the token before. -/
def insertable (kind : TokenKind) : Bool := kind = .semicolon || kind = .rightParen || kind = .rightBracket

def expect (kind : TokenKind) (code : DiagnosticCode) (message : Text) : Parse Token := do
  if ← isAt kind then advance
  else
    let place := (← get).place
    let problem := Diagnostic.ofError code (← errorSpan)
      (Text.concat [message, ", got ", place.current.describe])
    if insertable kind && 0 < place.last.stop then
      report (problem.withFix (Text.concat ["insert '", kind.spelling, "'"]) [⟨place.last.atEnd, kind.spelling⟩])
    else report problem
    throw .rejected

def expectName (message : Text) : Parse Token := expect .identifier .expectedIdentifier message

def expectSemicolon (after : Text) : Parse Unit := do
  let _ ← expect .semicolon .expectedSemicolon (Text.concat ["expected ';' after ", after])

def quietly {α : Type} (rule : Parse α) : Parse α := fun state =>
  match rule { state with quiet := state.quiet + 1 } with
  | .ok result after => .ok result { after with quiet := after.quiet - 1 }
  | .error stop after => .error stop { after with quiet := after.quiet - 1 }

def attempt {α : Type} (rule : Parse α) : Parse (Option α) := fun state =>
  match quietly rule state with
  | .ok result after => .ok (some result) after
  | .error .rejected after => .ok none { after with place := state.place }
  | .error stop after => .error stop after

def lookahead (rule : Parse Bool) : Parse Bool := fun state =>
  match quietly rule state with
  | .ok result after => .ok result { after with place := state.place }
  | .error .rejected after => .ok false { after with place := state.place }
  | .error stop after => .error stop after

def recover {α : Type} (rule : Parse α) : Parse (Option α) := fun state =>
  match rule state with
  | .ok result after => .ok (some result) after
  | .error .rejected after => .ok none after
  | .error stop after => .error stop after

/-- Reports once that the source nests too deep. This is reported even in a trial, because the parse
cannot go on. -/
def markTooDeep : Parse Unit := do
  let state ← get
  if !state.tooDeep then
    set { state with tooDeep := true, quiet := 0 }
    report (.ofError .tooDeep (← errorSpan)
      (Text.concat ["nesting exceeds ", Text.ofNat state.settings.maxNesting, " levels"]))
    modify fun after => { after with quiet := state.quiet }

def nested {α : Type} (rule : Parse α) : Parse α := do
  let state ← get
  if state.settings.maxNesting ≤ state.depth then
    markTooDeep
    throw .rejected
  fun state =>
    match rule { state with depth := state.depth + 1 } with
    | .ok result after => .ok result { after with depth := after.depth - 1 }
    | .error stop after => .error stop { after with depth := after.depth - 1 }

def dropTypeParams : Parse Unit := do
  let state ← get
  match state.typeParams with
  | [] => throw .underflow
  | _ :: outer => set { state with typeParams := outer }

def withTypeParams {α : Type} (names : List Text) (rule : Parse α) : Parse α := fun state =>
  match rule { state with typeParams := names :: state.typeParams } with
  | .ok result after => (dropTypeParams *> pure result) after
  | .error stop after => (dropTypeParams *> throw stop) after

inductive Round (α β : Type) where
  | again (next : α)
  | done (result : β)

def loopWithin {α β : Type} (round : α → Parse (Round α β)) : List Token → α → Parse β
  | [], _ => throw .exhausted
  | _ :: allowance, value => do
    match ← round value with
    | .done result => return result
    | .again next => loopWithin round allowance next

/-- Repeats a round until it is done. Every round but the last one has to take a token, so there are no
more rounds than tokens. -/
def loop {α β : Type} (start : α) (round : α → Parse (Round α β)) : Parse β := do
  let place := (← get).place
  loopWithin round (place.current :: place.upcoming) start

def whileAt {α : Type} (starts : TokenKind → Bool) (rule : Parse α) : Parse (List α) :=
  loop [] fun found => do
    if starts (← peek).kind then return .again ((← rule) :: found)
    return .done found.reverse

def separated {α : Type} (rule : Parse α) : Parse (List α) :=
  loop [] fun found => do
    let item ← rule
    if ← eat .comma then return .again (item :: found)
    return .done (item :: found).reverse

/-- Whether a name is a tag, a typedef or a type parameter in scope. -/
def isTypeName (name : Text) : Parse Bool := do
  let state ← get
  return state.typeNames.contains name || state.typeParams.any (·.contains name)

def atTypeStart : Parse Bool := do
  let token ← peek
  if token.kind.isTypeKeyword || token.kind.isQualifier || token.kind.isTag then return true
  else if token.kind = .identifier then isTypeName token.text
  else return false

end Parse
end GenericC
