import GenericC.Parser.Stmts

/-! The grammar of declarations. -/

namespace GenericC.Parse

def fieldLine (levels : Nat) : Parse (List Field) := do
  let start := (← peek).span
  let type ← typeExpr levels
  let fields ← loop (type, []) fun (state : TypeExpr × List Field) => do
    let (type, found) := state
    let name ← expectName "expected field name"
    let dims ← dimensions levels
    let found := { type, name := name.text, dims, loc := ← spanFrom start } :: found
    if ← eat .comma then return .again (← nextType type, found)
    return .done found.reverse
  expectSemicolon "field"
  return fields

def fieldBlock (levels : Nat) : Parse (List Field) := do
  let brace ← expect .leftBrace .unexpectedToken "expected '\x7b'"
  loop [] fun (fields : List Field) => do
    if ← isAt .rightBrace then
      let _ ← advance
      return .done fields
    if ← isAt .endOfFile then reject .unclosedBrace brace.span "unclosed '\x7b'"
    return .again (fields ++ (← fieldLine levels))

/-- Whether a struct is declared here, and not used as the type of something else. -/
def structAhead : Parse Bool := do
  let _ ← advance
  if ← isAt .leftBrace then return true
  if !(← eat .identifier) then return false
  if ← isAt .less then
    let _ ← typeParams
  return (← isAt .leftBrace) || (← isAt .semicolon)

def structDecl (levels : Nat) : Parse StructDecl := do
  let word ← advance
  let decl : StructDecl := { isUnion := word.kind = .kwUnion }
  let decl ← if ← isAt .identifier then do
      let name ← advance
      pure { decl with name := name.text, nameLoc := name.span }
    else if ← isAt .leftBrace then
      rejectHere .expectedIdentifier (Text.concat ["anonymous ", word.text, " needs a typedef"])
    else pure decl
  let decl ← if ← isAt .less then pure { decl with typeParams := ← typeParams } else pure decl
  if ← eat .semicolon then return { decl with loc := ← spanFrom word.span }
  let fields ← withTypeParams (decl.typeParams.map (·.name)) (fieldBlock levels)
  expectSemicolon (Text.concat [word.text, " declaration"])
  return { decl with fields := some fields, loc := ← spanFrom word.span }

def param (levels : Nat) : Parse Param := do
  let start := (← peek).span
  let type ← typeExpr levels
  let name ← if ← isAt .identifier then pure (← advance).text else pure []
  let dims ← dimensions levels
  return { type, name, dims, loc := ← spanFrom start }

/-- The parameters of a function in parentheses, and whether more may follow them. -/
def params (levels : Nat) : Parse (List Param × Bool) := do
  let bracket ← advance
  if ← eat .rightParen then return ([], false)
  if (← isAt .kwVoid) && (← peekPast 0).kind = .rightParen then
    let _ ← advance
    let _ ← advance
    return ([], false)
  let found ← loop [] fun (found : List Param) => do
    if ← eat .ellipsis then return .done (found.reverse, true)
    let found := (← param levels) :: found
    if ← eat .comma then return .again found
    return .done (found.reverse, false)
  if ← eat .rightParen then return found
  reject .unclosedParen bracket.span
    (Text.concat ["expected ')' to close parameter list, got ", (← peek).describe])

def functionRest (levels : Nat) (start : Span) (decl : FuncDecl) : Parse FuncDecl := do
  let (params, variadic) ← params levels
  let decl := { decl with params, variadic }
  if ← eat .semicolon then return { decl with loc := ← spanFrom start }
  if !(← isAt .leftBrace) then
    rejectHere .expectedSemicolon (Text.concat ["expected ';' or function body, got ", (← peek).describe])
  let body ← block (stmt levels)
  return { decl with body := some body, loc := ← spanFrom start }

def functionOrVars (levels : Nat) : Parse Decl := do
  let start := (← peek).span
  let storage ← storage
  let type ← typeExpr levels
  let name ← expectName "expected declaration name"
  let params ← if ← isAt .less then do
      let params ← typeParams
      if !(← isAt .leftParen) then
        rejectHere .unexpectedToken "type parameters are only allowed on functions and structs"
      pure params
    else pure []
  if ← isAt .leftParen then
    let decl : FuncDecl :=
      { storage, result := type, name := name.text, nameLoc := name.span, typeParams := params }
    return .function (← withTypeParams (params.map (·.name)) (functionRest levels start decl))
  let vars ← declarators levels type name
  expectSemicolon "declaration"
  return .vars { storage, vars, loc := ← spanFrom start }

/-- What a typedef names: a struct with its body in place, or a type. -/
def typedefTarget (levels : Nat) : Parse TypedefTarget := do
  let token ← peek
  let next ← peekPast 0
  let body := next.kind = .leftBrace || (next.kind = .identifier && (← peekPast 1).kind = .leftBrace)
  if (token.kind = .kwStruct || token.kind = .kwUnion) && body then
    let word ← advance
    let decl : StructDecl := { isUnion := word.kind = .kwUnion }
    let decl ← if ← isAt .identifier then do
        let name ← advance
        pure { decl with name := name.text, nameLoc := name.span }
      else pure decl
    let fields ← fieldBlock levels
    return .body { decl with fields := some fields, loc := ← spanFrom word.span }
  else return .type (← typeExpr levels)

def typedefDecl (levels : Nat) : Parse TypedefDecl := do
  let word ← advance
  let target ← typedefTarget levels
  let name ← expectName "expected typedef name"
  let dims ← dimensions levels
  expectSemicolon "typedef"
  modify fun state => { state with typeNames := name.text :: state.typeNames }
  return { target, name := name.text, dims, loc := ← spanFrom word.span }

def enumItem (levels : Nat) : Parse EnumItem := do
  let name ← expectName "expected enumerator name"
  let value ← if ← eat .assign then some <$> value levels else pure none
  return { name := name.text, value, loc := ← spanFrom name.span }

def enumDecl (levels : Nat) : Parse EnumDecl := do
  let word ← advance
  let name ← if ← isAt .identifier then pure (← advance).text else pure []
  let brace ← advance
  let items ← loop [] fun (items : List EnumItem) => do
    if ← isAt .rightBrace then return .done items.reverse
    let items := (← enumItem levels) :: items
    if ← eat .comma then return .again items
    return .done items.reverse
  if !(← eat .rightBrace) then
    reject .unclosedBrace brace.span "expected '\x7d' to close enum"
  expectSemicolon "enum"
  return { name, items, loc := ← spanFrom word.span }

def enumAhead : Parse Bool := do
  let next ← peekPast 0
  return next.kind = .leftBrace || (next.kind = .identifier && (← peekPast 1).kind = .leftBrace)

def otherDecl (levels : Nat) : Parse Decl := do
  let token ← peek
  if (← atTypeStart) || token.kind.isStorage || token.kind = .identifier then functionOrVars levels
  else rejectHere .unexpectedTopLevel (Text.concat ["unexpected ", token.describe, " at top level"])

/-- One declaration; a stray semicolon is none. -/
def topLevel (levels : Nat) : Parse (Option Decl) := do
  let token ← peek
  match token.kind with
  | .directive =>
    let _ ← advance
    return some (.ofLine token.text token.span)
  | .semicolon =>
    let _ ← advance
    return none
  | .kwTypedef => return some (.typedef (← typedefDecl levels))
  | .kwStruct | .kwUnion =>
    if ← lookahead structAhead then return some (.struct (← structDecl levels))
    return some (← otherDecl levels)
  | .kwEnum =>
    if ← enumAhead then return some (.enum (← enumDecl levels))
    return some (← otherDecl levels)
  | _ => return some (← otherDecl levels)

/-- Skips the rest of a broken declaration: up to its semicolon, or the brace that closes its body. -/
def skipDecl : Parse Unit :=
  loop 0 fun (depth : Nat) => do
    match (← peek).kind with
    | .endOfFile => return .done ()
    | .leftBrace =>
      let _ ← advance
      return .again (depth + 1)
    | .rightBrace =>
      let _ ← advance
      if 1 < depth then return .again (depth - 1)
      let _ ← eat .semicolon
      return .done ()
    | .semicolon =>
      let _ ← advance
      if depth = 0 then return .done ()
      return .again depth
    | .directive =>
      if depth = 0 then return .done ()
      let _ ← advance
      return .again depth
    | _ =>
      let _ ← advance
      return .again depth

/-- All declarations up to the end of the file. Behind a broken one the parse goes on with the next. -/
def decls (levels : Nat) : Parse (List Decl) :=
  loop [] fun (decls : List Decl) => do
    if (← isAt .endOfFile) || (← get).tooDeep then return .done decls.reverse
    let start := (← get).place.taken
    match ← recover (topLevel levels) with
    | some decl => return .again (decl.toList ++ decls)
    | none =>
      skipDecl
      if (← get).place.taken = start then
        let _ ← advance
      return .again decls

end GenericC.Parse
