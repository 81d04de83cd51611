import GenericC.Program.Decl
import GenericC.Proofs.TypeKeys

/-! Trees without where their parts are written. Two trees that become the same without places differ at most in the
layout of their sources. -/

namespace GenericC

theorem TypeExpr.base_bare (type : TypeExpr) : type.bare.base = type.base.bare := by
  cases type with
  | absent | named name loc | applied name args loc => rfl
  | pointer elem loc => exact elem.base_bare

theorem TypeExpr.pointerDepth_bare (type : TypeExpr) : type.bare.pointerDepth = type.pointerDepth := by
  cases type with
  | absent | named name loc | applied name args loc => rfl
  | pointer elem loc => exact congrArg (· + 1) elem.pointerDepth_bare

mutual
def Expr.bare : Expr → Expr
  | .name called _ => .name called Span.nowhere
  | .literal kind value _ => .literal kind value Span.nowhere
  | .binary op left right _ => .binary op left.bare right.bare Span.nowhere
  | .unary op operand _ => .unary op operand.bare Span.nowhere
  | .step op operand _ => .step op operand.bare Span.nowhere
  | .conditional test yes no _ => .conditional test.bare yes.bare no.bare Span.nowhere
  | .call callee typeArgs args _ => .call callee.bare (TypeExpr.bareAll typeArgs) (Expr.bareAll args) Span.nowhere
  | .member object field arrow _ => .member object.bare field arrow Span.nowhere
  | .index object position _ => .index object.bare position.bare Span.nowhere
  | .sizeofType type _ => .sizeofType type.bare Span.nowhere
  | .sizeofExpr operand _ => .sizeofExpr operand.bare Span.nowhere
  | .cast type operand _ => .cast type.bare operand.bare Span.nowhere
  | .paren inner _ => .paren inner.bare Span.nowhere
  | .initList elems _ => .initList (Expr.bareAll elems) Span.nowhere

def Expr.bareAll : List Expr → List Expr
  | [] => []
  | first :: rest => first.bare :: Expr.bareAll rest
end

theorem Expr.bareAll_eq_map (exprs : List Expr) : Expr.bareAll exprs = exprs.map Expr.bare := by
  induction exprs with
  | nil => rfl
  | cons first rest ih => rw [Expr.bareAll, ih, List.map_cons]

def Dimensions.bare (dims : Dimensions) : Dimensions := dims.map (·.map Expr.bare)

def Declarator.bare (declarator : Declarator) : Declarator where
  type := declarator.type.bare
  name := declarator.name
  dims := declarator.dims.bare
  init := declarator.init.map Expr.bare
  loc := Span.nowhere

def VarDecl.bare (decl : VarDecl) : VarDecl where
  storage := decl.storage
  vars := decl.vars.map Declarator.bare
  loc := Span.nowhere

def ForInit.bare : ForInit → ForInit
  | absent => absent
  | vars decl => vars decl.bare
  | expr value _ => expr value.bare Span.nowhere

mutual
def Stmt.bare : Stmt → Stmt
  | .block stmts _ => .block (Stmt.bareAll stmts) Span.nowhere
  | .ret value _ => .ret (value.map Expr.bare) Span.nowhere
  | .ifThen test yes _ => .ifThen test.bare yes.bare Span.nowhere
  | .ifElse test yes no _ => .ifElse test.bare yes.bare no.bare Span.nowhere
  | .whileLoop test body _ => .whileLoop test.bare body.bare Span.nowhere
  | .doWhile body test _ => .doWhile body.bare test.bare Span.nowhere
  | .forLoop init test post body _ =>
    .forLoop init.bare (test.map Expr.bare) (post.map Expr.bare) body.bare Span.nowhere
  | .breakLoop _ => .breakLoop Span.nowhere
  | .continueLoop _ => .continueLoop Span.nowhere
  | .empty _ => .empty Span.nowhere
  | .expr value _ => .expr value.bare Span.nowhere
  | .vars decl => .vars decl.bare

def Stmt.bareAll : List Stmt → List Stmt
  | [] => []
  | first :: rest => first.bare :: Stmt.bareAll rest
end

section
-- The equations of both are derived here once, since many proofs about rules ask for them.
attribute [local simp] Expr.bare Stmt.bare

theorem Stmt.bareAll_eq_map (stmts : List Stmt) : Stmt.bareAll stmts = stmts.map Stmt.bare := by
  induction stmts with
  | nil => rfl
  | cons first rest ih => rw [Stmt.bareAll, ih, List.map_cons]

end

def Block.bare (block : Block) : Block where
  stmts := block.stmts.map Stmt.bare
  loc := Span.nowhere

theorem Block.toStmt_bare (block : Block) : block.bare.toStmt = block.toStmt.bare := by
  simp only [Block.toStmt, Block.bare, Stmt.bare, Stmt.bareAll_eq_map]

def TypeParam.bare (param : TypeParam) : TypeParam := { param with loc := Span.nowhere }

def Field.bare (field : Field) : Field where
  type := field.type.bare
  name := field.name
  dims := field.dims.bare
  loc := Span.nowhere

def Param.bare (param : Param) : Param where
  type := param.type.bare
  name := param.name
  dims := param.dims.bare
  loc := Span.nowhere

def StructDecl.bare (decl : StructDecl) : StructDecl where
  isUnion := decl.isUnion
  name := decl.name
  typeParams := decl.typeParams.map TypeParam.bare
  fields := decl.fields.map (·.map Field.bare)

theorem StructDecl.bare_typeParams (decl : StructDecl) (typeParams : List TypeParam) :
    { decl with typeParams }.bare = { decl.bare with typeParams := typeParams.map TypeParam.bare } := rfl

theorem StructDecl.bare_fields (decl : StructDecl) (fields : List Field) (loc : Span) :
    { decl with fields := some fields, loc }.bare = { decl.bare with fields := some (fields.map Field.bare) } := rfl

def FuncDecl.bare (decl : FuncDecl) : FuncDecl where
  storage := decl.storage
  result := decl.result.bare
  name := decl.name
  nameLoc := Span.nowhere
  typeParams := decl.typeParams.map TypeParam.bare
  params := decl.params.map Param.bare
  variadic := decl.variadic
  body := decl.body.map Block.bare

theorem FuncDecl.bare_params (decl : FuncDecl) (params : List Param) (variadic : Bool) :
    { decl with params, variadic }.bare = { decl.bare with params := params.map Param.bare, variadic } := rfl

theorem FuncDecl.bare_body (decl : FuncDecl) (body : Block) (loc : Span) :
    { decl with body := some body, loc }.bare = { decl.bare with body := some body.bare } := rfl

def TypedefTarget.bare : TypedefTarget → TypedefTarget
  | type target => type target.bare
  | body decl => body decl.bare

def TypedefDecl.bare (decl : TypedefDecl) : TypedefDecl where
  target := decl.target.bare
  name := decl.name
  dims := decl.dims.bare
  loc := Span.nowhere

def EnumItem.bare (item : EnumItem) : EnumItem where
  name := item.name
  value := item.value.map Expr.bare
  loc := Span.nowhere

def EnumDecl.bare (decl : EnumDecl) : EnumDecl where
  name := decl.name
  items := decl.items.map EnumItem.bare

def Decl.bare : Decl → Decl
  | struct decl => struct decl.bare
  | function decl => function decl.bare
  | vars decl => vars decl.bare
  | typedef decl => typedef decl.bare
  | enum decl => enum decl.bare
  | inclusion target line _ => inclusion target line Span.nowhere
  | directive line _ => directive line Span.nowhere

def Program.bare (program : Program) : Program where
  decls := program.decls.map Decl.bare

end GenericC
