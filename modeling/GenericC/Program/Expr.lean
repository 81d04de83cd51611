import GenericC.Token.Kind
import GenericC.TypeExpr

/-! Expressions. Parentheses of the source are kept as nodes, so that an expression can be
written back without a precedence table. -/

namespace GenericC

inductive Expr
  | name (name : Text) (loc : Span)
  /-- A number, character or string; adjacent strings are one literal. -/
  | literal (kind : TokenKind) (value : Text) (loc : Span)
  /-- An operator between two operands, assignment and the comma included. -/
  | binary (op : TokenKind) (left right : Expr) (loc : Span)
  | unary (op : TokenKind) (operand : Expr) (loc : Span)
  /-- `++` or `--` after its operand. -/
  | step (op : TokenKind) (operand : Expr) (loc : Span)
  | conditional (test yes no : Expr) (loc : Span)
  /-- A call; `typeArgs` is not empty when type arguments are written, as in `identity<int>(42)`. -/
  | call (callee : Expr) (typeArgs : List TypeExpr) (args : List Expr) (loc : Span)
  | member (object : Expr) (field : Text) (arrow : Bool) (loc : Span)
  | index (object position : Expr) (loc : Span)
  | sizeofType (type : TypeExpr) (loc : Span)
  | sizeofExpr (operand : Expr) (loc : Span)
  | cast (type : TypeExpr) (operand : Expr) (loc : Span)
  | paren (inner : Expr) (loc : Span)
  | initList (elems : List Expr) (loc : Span)
deriving Repr

namespace Expr

def span : Expr → Span
  | name _ loc => loc
  | literal _ _ loc => loc
  | binary _ _ _ loc => loc
  | unary _ _ loc => loc
  | step _ _ loc => loc
  | conditional _ _ _ loc => loc
  | call _ _ _ loc => loc
  | member _ _ _ loc => loc
  | index _ _ loc => loc
  | sizeofType _ loc => loc
  | sizeofExpr _ loc => loc
  | cast _ _ loc => loc
  | paren _ loc => loc
  | initList _ loc => loc

def calleeName : Expr → Text
  | name called _ => called
  | _ => []

end Expr

/-- The array dimensions of a declared name; one without a size is `none`. -/
abbrev Dimensions := List (Option Expr)

end GenericC
