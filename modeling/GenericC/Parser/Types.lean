import GenericC.Parser.State
import GenericC.Program.Decl

/-! The grammar of types:

    type := qualifier* base qualifier* ('*' qualifier*)*
    base := keyword+ | ('struct' | 'union' | 'enum') name [args] | name [args]
    args := '<' type {',' type} '>'
-/

namespace GenericC.Parse

def qualifiers : Parse (List Text) := whileAt TokenKind.isQualifier do return (← advance).text

/-- Puts qualifiers in front of the name of a type, each word once. -/
def qualify (words : List Text) (type : TypeExpr) : TypeExpr :=
  let front : Text := Text.joinWith " " words.eraseDups ++ [Text.byte ' ']
  if words.isEmpty then type
  else match type with
    | .named name loc => .named (front ++ name) loc
    | .applied name args loc => .applied (front ++ name) args loc
    | other => other

def typeArgs (type : Parse TypeExpr) : Parse (List TypeExpr) := do
  let _ ← expect .less .unexpectedToken "expected '<'"
  let args ← separated type
  if ← closeAngle then return args
  rejectHere .unclosedAngle
    (Text.concat ["expected '>' to close type arguments, got ", (← peek).describe])

def applied (type : Parse TypeExpr) (name : Token) : Parse TypeExpr := do
  let args ← typeArgs type
  return .applied name.text args (← spanFrom name.span)

def baseType (type : Parse TypeExpr) : Parse TypeExpr := do
  let token ← peek
  if token.kind.isTypeKeyword then
    let words ← whileAt TokenKind.isTypeKeyword do return (← advance).text
    return .named (Text.joinWith " " words) (← spanFrom token.span)
  else if token.kind.isTag then
    let tag ← advance
    let name ← expectName (Text.concat ["expected tag name after '", tag.text, "'"])
    if ← isAt .less then applied type name
    else return .named (Text.concat [tag.text, " ", name.text]) (tag.span.cover name.span)
  else if token.kind = .identifier then
    let name ← advance
    if ← isAt .less then applied type name
    else return .named name.text name.span
  else rejectHere .expectedType (Text.concat ["expected type, got ", token.describe])

def stars (start : Span) (type : TypeExpr) : Parse TypeExpr :=
  loop type fun type => do
    if ← eat .star then
      let _ ← qualifiers
      return .again (.pointer type (← spanFrom start))
    return .done type

/-- A type, inside which at most `levels` types may nest. -/
def typeExpr : (levels : Nat) → Parse TypeExpr
  | 0 => throw .exhausted
  | levels + 1 => nested do
    let start := (← peek).span
    let before ← qualifiers
    let base ← baseType (typeExpr levels)
    let after ← qualifiers
    stars start (qualify (before ++ after) base)

def countStars : Parse Nat := return (← whileAt (· = .star) do
  let _ ← advance
  qualifiers).length

/-- The type of a further declared name: the base type of the name before, with stars of its own. -/
def nextType (type : TypeExpr) : Parse TypeExpr := return type.base.pointers (← countStars)

def typeParams : Parse (List TypeParam) := do
  let bracket ← advance
  let token ← peek
  if token.kind = .greater then
    report (.ofError .emptyTypeParams (bracket.span.cover token.span) "empty type parameter list")
    let _ ← advance
    throw .rejected
  let params ← loop [] fun (params : List TypeParam) => do
    let name ← expectName "expected type parameter name"
    for _ in params.filter (·.name = name.text) do
      report (.ofError .duplicateTypeParam name.span (Text.concat ["duplicate type parameter ", name.text]))
    let params := params ++ [⟨name.text, name.span⟩]
    if ← eat .comma then return .again params
    return .done params
  if ← closeAngle then return params
  rejectHere .unclosedAngle
    (Text.concat ["expected '>' to close type parameters, got ", (← peek).describe])

/-- Whether a type can be nothing else where an expression might stand. -/
def isTypeLike (type : TypeExpr) : Parse Bool :=
  match type with
  | .pointer _ _ => return true
  | .applied _ _ _ => return true
  | .named name _ => do
    if name.contains (Text.byte ' ') then return true
    match TokenKind.keyword? name with
    | some kind => if kind.isTypeKeyword then return true else isTypeName name
    | none => isTypeName name
  | .absent => return false

end GenericC.Parse
