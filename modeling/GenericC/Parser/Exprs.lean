import GenericC.Parser.Types

/-! The grammar of expressions. Operators bind by their precedence: one loop reads an operand
after every operator that binds tightly enough, and the operand takes the operators that bind
tighter. -/

namespace GenericC

/-- How tightly an operator binds, and whether it groups to the right. -/
structure Binding where
  precedence : Nat
  right : Bool := false
deriving DecidableEq, Repr

namespace Binding

def comma : Nat := 1
def assignment : Nat := 2
def conditional : Nat := 3

def of? (kind : TokenKind) : Option Binding :=
  if kind.isAssign then some ⟨assignment, true⟩
  else match kind with
    | .comma => some ⟨comma, false⟩
    | .question => some ⟨conditional, true⟩
    | .orOr => some ⟨4, false⟩
    | .andAnd => some ⟨5, false⟩
    | .pipe => some ⟨6, false⟩
    | .caret => some ⟨7, false⟩
    | .amp => some ⟨8, false⟩
    | .equal | .notEqual => some ⟨9, false⟩
    | .less | .lessEqual | .greater | .greaterEqual => some ⟨10, false⟩
    | .shiftLeft | .shiftRight => some ⟨11, false⟩
    | .plus | .minus => some ⟨12, false⟩
    | .star | .slash | .percent => some ⟨13, false⟩
    | _ => none

def rightPrecedence (binding : Binding) : Nat :=
  if binding.right then binding.precedence else binding.precedence + 1

end Binding

def TokenKind.isUnary : TokenKind → Bool
  | minus | plus | bang | tilde | star | amp | plusPlus | minusMinus => true
  | _ => false

namespace Parse

/-- The operators from `least` on, and their operands, behind a first operand. -/
def operators (operand : Nat → Parse Expr) (least : Nat) (first : Expr) : Parse Expr :=
  loop first fun left => do
    let token ← peek
    match Binding.of? token.kind with
    | none => return .done left
    | some binding =>
      if binding.precedence < least then return .done left
      let _ ← advance
      if token.kind = .question then
        let yes ← operand Binding.comma
        let _ ← expect .colon .unexpectedToken "expected ':' in conditional expression"
        let no ← operand Binding.conditional
        return .again (.conditional left yes no (left.span.cover no.span))
      let right ← operand binding.rightPrecedence
      return .again (.binary token.kind left right (left.span.cover right.span))

def callArgs (operand : Nat → Parse Expr) (callee : Expr) (types : List TypeExpr) : Parse Expr := do
  let bracket ← advance
  let args ← if ← isAt .rightParen then pure [] else separated (operand Binding.assignment)
  if ← eat .rightParen then return .call callee types args (← spanFrom callee.span)
  reject .unclosedParen bracket.span
    (Text.concat ["expected ')' to close argument list, got ", (← peek).describe])

/-- The type arguments of a generic call. Unless each of them can only be a type, the bracket is a
comparison. -/
def callTypeArgs (type : Parse TypeExpr) : Parse (List TypeExpr) := do
  let types ← typeArgs type
  if !(← isAt .leftParen) then throw .rejected
  for type in types do
    if !(← isTypeLike type) then throw .rejected
  return types

def primary (operand : Nat → Parse Expr) (type : Parse TypeExpr) : Parse Expr := do
  let token ← peek
  match token.kind with
  | .identifier =>
    let _ ← advance
    let name := Expr.name token.text token.span
    if ← isAt .less then
      match ← attempt (callTypeArgs type) with
      | some types => callArgs operand name types
      | none => return name
    else return name
  | .integer | .floating | .character =>
    let _ ← advance
    return .literal token.kind token.text token.span
  | .string =>
    let parts ← whileAt (· = .string) do return (← advance).text
    return .literal .string (Text.joinWith " " parts) (← spanFrom token.span)
  | .leftParen =>
    let _ ← advance
    let inner ← operand Binding.comma
    if ← eat .rightParen then return .paren inner (← spanFrom token.span)
    reject .unclosedParen token.span "expected ')' to close parenthesized expression"
  | _ => rejectHere .expectedExpression (Text.concat ["expected expression, got ", token.describe])

def trailers (operand : Nat → Parse Expr) (first : Expr) : Parse Expr :=
  loop first fun object => do
    let token ← peek
    match token.kind with
    | .leftParen => return .again (← callArgs operand object [])
    | .leftBracket =>
      let _ ← advance
      let position ← operand Binding.comma
      if ← eat .rightBracket then return .again (.index object position (← spanFrom object.span))
      rejectHere .expectedRightBracket "expected ']' after index"
    | .dot | .arrow =>
      let _ ← advance
      let name ← expectName "expected member name"
      return .again (.member object name.text (token.kind = .arrow) (object.span.cover name.span))
    | .plusPlus | .minusMinus =>
      let _ ← advance
      return .again (.step token.kind object (object.span.cover token.span))
    | _ => return .done object

def parenType (type : Parse TypeExpr) : Parse TypeExpr := do
  let _ ← advance
  if !(← atTypeStart) then throw .rejected
  let found ← type
  if ← eat .rightParen then return found
  throw .rejected

def sizeof (unary : Parse Expr) (type : Parse TypeExpr) : Parse Expr := do
  let word ← advance
  let found ← if ← isAt .leftParen then attempt (parenType type) else pure none
  match found with
  | some type => return .sizeofType type (← spanFrom word.span)
  | none =>
    let operand ← unary
    return .sizeofExpr operand (word.span.cover operand.span)

/-- What follows the type of a cast: a list of values in braces, or an operand. -/
def castOperand (unary initList : Parse Expr) : Parse Expr := do
  if ← isAt .leftBrace then initList else unary

def unaryBody (operand : Nat → Parse Expr) (unary initList : Parse Expr) (type : Parse TypeExpr) :
    Parse Expr := do
  let token ← peek
  if token.kind.isUnary then
    let _ ← advance
    let inner ← unary
    return .unary token.kind inner (token.span.cover inner.span)
  else if token.kind = .kwSizeof then sizeof unary type
  else
    let found ← if token.kind = .leftParen then attempt (parenType type) else pure none
    match found with
    | some type =>
      let inner ← castOperand unary initList
      return .cast type inner (token.span.cover inner.span)
    | none => trailers operand (← primary operand type)

/-- Values in braces, the last one perhaps followed by a comma. -/
def initListBody (value initList : Parse Expr) : Parse Expr := do
  let brace ← advance
  let elems ← loop [] fun (elems : List Expr) => do
    if ← isAt .rightBrace then return .done elems.reverse
    let elem ← if ← isAt .leftBrace then initList else value
    if ← eat .comma then return .again (elem :: elems)
    return .done (elem :: elems).reverse
  if ← eat .rightBrace then return .initList elems (← spanFrom brace.span)
  reject .unclosedBrace brace.span "expected '\x7d' to close initializer"

mutual
/-- An expression of operators with precedence `least` or more. -/
def binary : (levels least : Nat) → Parse Expr
  | 0, _ => throw .exhausted
  | levels + 1, least => nested do operators (binary levels) least (← unary levels)

def unary : (levels : Nat) → Parse Expr
  | 0 => throw .exhausted
  | levels + 1 => nested (unaryBody (binary levels) (unary levels) (initList levels) (typeExpr levels))

def initList : (levels : Nat) → Parse Expr
  | 0 => throw .exhausted
  | levels + 1 => nested (initListBody (binary levels Binding.assignment) (initList levels))
end

def expr (levels : Nat) : Parse Expr := binary levels Binding.comma

def value (levels : Nat) : Parse Expr := binary levels Binding.assignment

def initializer (levels : Nat) : Parse Expr := do
  if ← isAt .leftBrace then initList levels else value levels

end Parse
end GenericC
