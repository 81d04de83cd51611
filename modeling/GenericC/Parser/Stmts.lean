import GenericC.Parser.Exprs

/-! The grammar of variable declarations and statements. -/

namespace GenericC.Parse

def dimensions (levels : Nat) : Parse Dimensions :=
  whileAt (· = .leftBracket) do
    let bracket ← advance
    if ← eat .rightBracket then return none
    let size ← expr levels
    if ← eat .rightBracket then return some size
    reject .unclosedBracket bracket.span "expected ']' to close array dimension"

def storage : Parse Storage :=
  loop {} fun (found : Storage) => do
    match (← peek).kind with
    | .kwStatic =>
      let _ ← advance
      return .again { found with isStatic := true }
    | .kwExtern =>
      let _ ← advance
      return .again { found with isExtern := true }
    | .kwInline =>
      let _ ← advance
      return .again { found with isInline := true }
    | _ => return .done found

def declarator (levels : Nat) (type : TypeExpr) (name : Token) : Parse Declarator := do
  let dims ← dimensions levels
  let init ← if ← eat .assign then some <$> initializer levels else pure none
  return { type, name := name.text, dims, init, loc := ← spanFrom name.span }

/-- The variables of a declaration, from behind the first name to before the semicolon. -/
def declarators (levels : Nat) (type : TypeExpr) (name : Token) : Parse (List Declarator) :=
  loop (type, name, []) fun (state : TypeExpr × Token × List Declarator) => do
    let (type, name, found) := state
    let found := (← declarator levels type name) :: found
    if ← eat .comma then
      let type ← nextType type
      return .again (type, ← expectName "expected variable name", found)
    return .done found.reverse

def localVars (levels : Nat) : Parse VarDecl := do
  let start := (← peek).span
  let storage ← storage
  let type ← typeExpr levels
  let name ← expectName "expected variable name"
  let vars ← declarators levels type name
  expectSemicolon "declaration"
  return { storage, vars, loc := ← spanFrom start }

/-- Whether a type and a name follow, so that they can only be a declaration: the type is a known name, is
applied to arguments, or is a plain name and what follows suits a variable. -/
def typedName (levels : Nat) : Parse Bool := do
  let type ← typeExpr levels
  if !(← isAt .identifier) then return false
  let known ← match type.base with
    | .applied _ _ _ => pure true
    | .named name _ => isTypeName name
    | _ => pure false
  if known then return true
  if 0 < type.pointerDepth then return false
  match (← peekPast 0).kind with
  | .semicolon | .assign | .leftBracket | .comma => return true
  | _ => return false

def atLocalVars (levels : Nat) : Parse Bool := do
  let token ← peek
  if token.kind.isStorage then return true
  else if token.kind = .identifier then lookahead (typedName levels)
  else atTypeStart

def condition (levels : Nat) (owner : Text) : Parse Expr := do
  let bracket ← expect .leftParen .unexpectedToken (Text.concat ["expected '(' after ", owner])
  let test ← expr levels
  if ← eat .rightParen then return test
  reject .unclosedParen bracket.span (Text.concat ["expected ')' to close ", owner, " condition"])

/-- Skips the rest of a broken statement: up to its semicolon, or to the brace that closes the block. -/
def skipStmt : Parse Unit :=
  loop 0 fun (depth : Nat) => do
    match (← peek).kind with
    | .endOfFile => return .done ()
    | .leftBrace =>
      let _ ← advance
      return .again (depth + 1)
    | .rightBrace =>
      if depth = 0 then return .done ()
      let _ ← advance
      return .again (depth - 1)
    | .semicolon =>
      let _ ← advance
      if depth = 0 then return .done ()
      return .again depth
    | _ =>
      let _ ← advance
      return .again depth

/-- Statements in braces. Behind a broken one the parse goes on with the next. -/
def block (stmt : Parse Stmt) : Parse Block := do
  let brace ← expect .leftBrace .unexpectedToken "expected '\x7b'"
  let stmts ← loop [] fun (stmts : List Stmt) => do
    if ← isAt .rightBrace then
      let _ ← advance
      return .done stmts.reverse
    if (← get).tooDeep then throw .rejected
    if ← isAt .endOfFile then reject .unclosedBrace brace.span "unclosed '\x7b'"
    match ← recover stmt with
    | some found => return .again (found :: stmts)
    | none =>
      if (← get).tooDeep then throw .rejected
      skipStmt
      return .again stmts
  return { stmts, loc := ← spanFrom brace.span }

def ifStmt (levels : Nat) (stmt : Parse Stmt) : Parse Stmt := do
  let word ← advance
  let test ← condition levels "if"
  let yes ← stmt
  if ← eat .kwElse then
    let no ← stmt
    return .ifElse test yes no (← spanFrom word.span)
  return .ifThen test yes (← spanFrom word.span)

/-- What stands in front of the first semicolon of a `for`, with that semicolon. -/
def forInit (levels : Nat) : Parse ForInit := do
  if ← eat .semicolon then return .absent
  else if ← atLocalVars levels then return .vars (← localVars levels)
  else
    let start := (← peek).span
    let value ← expr levels
    expectSemicolon "for initializer"
    return .expr value (← spanFrom start)

/-- An expression, unless the current token is the one that follows it. -/
def exprBefore (levels : Nat) (follower : TokenKind) : Parse (Option Expr) := do
  if ← isAt follower then return none
  return some (← expr levels)

def forStmt (levels : Nat) (stmt : Parse Stmt) : Parse Stmt := do
  let word ← advance
  let bracket ← expect .leftParen .unexpectedToken "expected '(' after for"
  let init ← forInit levels
  let test ← exprBefore levels .semicolon
  expectSemicolon "for condition"
  let post ← exprBefore levels .rightParen
  if !(← eat .rightParen) then
    reject .unclosedParen bracket.span "expected ')' to close for header"
  let body ← stmt
  return .forLoop init test post body (← spanFrom word.span)

def stmtBody (levels : Nat) (stmt : Parse Stmt) : Parse Stmt := do
  let token ← peek
  match token.kind with
  | .leftBrace => return (← block stmt).toStmt
  | .semicolon =>
    let _ ← advance
    return .empty token.span
  | .kwReturn =>
    let _ ← advance
    let value ← exprBefore levels .semicolon
    expectSemicolon "return"
    return .ret value (← spanFrom token.span)
  | .kwBreak =>
    let _ ← advance
    expectSemicolon token.text
    return .breakLoop (← spanFrom token.span)
  | .kwContinue =>
    let _ ← advance
    expectSemicolon token.text
    return .continueLoop (← spanFrom token.span)
  | .kwIf => ifStmt levels stmt
  | .kwWhile =>
    let _ ← advance
    let test ← condition levels "while"
    let body ← stmt
    return .whileLoop test body (← spanFrom token.span)
  | .kwDo =>
    let _ ← advance
    let body ← stmt
    let _ ← expect .kwWhile .unexpectedToken "expected 'while' after do body"
    let test ← condition levels "do-while"
    expectSemicolon "do-while"
    return .doWhile body test (← spanFrom token.span)
  | .kwFor => forStmt levels stmt
  | _ =>
    if ← atLocalVars levels then return .vars (← localVars levels)
    let value ← expr levels
    expectSemicolon "expression"
    return .expr value (← spanFrom token.span)

/-- A statement, inside which at most `levels` statements may nest. -/
def stmt : (levels : Nat) → Parse Stmt
  | 0 => throw .exhausted
  | levels + 1 => nested (stmtBody levels (stmt levels))

end GenericC.Parse
