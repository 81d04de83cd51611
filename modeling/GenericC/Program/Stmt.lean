import GenericC.Program.Expr

/-! Variable declarations and statements. -/

namespace GenericC

structure Storage where
  isStatic : Bool := false
  isExtern : Bool := false
  isInline : Bool := false
deriving DecidableEq, Repr

def Storage.render (storage : Storage) : Text :=
  Text.concat [if storage.isStatic then "static " else "", if storage.isExtern then "extern " else "",
    if storage.isInline then "inline " else ""]

structure Declarator where
  type : TypeExpr
  name : Text
  dims : Dimensions := []
  init : Option Expr := none
  loc : Span
deriving Repr

/-- One or more variables that share a base type, at top level or as a statement. -/
structure VarDecl where
  storage : Storage
  vars : List Declarator
  loc : Span
deriving Repr

/-- What stands in front of the first semicolon of a `for`. -/
inductive ForInit
  | absent
  | vars (decl : VarDecl)
  | expr (value : Expr) (loc : Span)
deriving Repr

inductive Stmt
  | block (stmts : List Stmt) (loc : Span)
  | ret (value : Option Expr) (loc : Span)
  | ifThen (test : Expr) (yes : Stmt) (loc : Span)
  | ifElse (test : Expr) (yes no : Stmt) (loc : Span)
  | whileLoop (test : Expr) (body : Stmt) (loc : Span)
  | doWhile (body : Stmt) (test : Expr) (loc : Span)
  | forLoop (init : ForInit) (test post : Option Expr) (body : Stmt) (loc : Span)
  | breakLoop (loc : Span)
  | continueLoop (loc : Span)
  | empty (loc : Span)
  | expr (value : Expr) (loc : Span)
  | vars (decl : VarDecl)
deriving Repr

structure Block where
  stmts : List Stmt
  loc : Span
deriving Repr

def Block.toStmt (block : Block) : Stmt := .block block.stmts block.loc

end GenericC
