import GenericC.Program.Decl
import GenericC.Token.Listing

/-! The outline of a program: a tree of short descriptions, drawn with lines for people or
written as JSON for tools. -/

namespace GenericC

/-- One line of an outline and the lines below it. Only declarations and statements have a place. -/
inductive Outline
  | entry (kind label : Text) (span : Span) (children : List Outline)
deriving Repr

namespace Outline

def leaf (kind label : Text) (children : List Outline := []) : Outline := entry kind label Span.nowhere children

/-- Lines and columns where the file is known, and otherwise offsets. -/
def place (files : Option FileSet) (span : Span) : Text :=
  match files.bind (·.resolve? span) with
  | some (start, stop) => Text.concat [start.render, "-", stop.render]
  | none => Text.concat ["span(", Text.ofUInt32 span.start, "-", Text.ofUInt32 span.stop, ")"]

def headline (files : Option FileSet) (kind label : Text) (span : Span) : Text :=
  Text.concat [kind, if label.isEmpty then "" else Text.concat [" ", label],
    if span = Span.nowhere then "" else Text.concat [" (span: ", place files span, ")"]]

mutual
/-- An entry under the lines `before` that lead down to it. -/
def draw (files : Option FileSet) (before : Text) (last : Bool) : Outline → Text
  | entry kind label span children =>
    Text.concat [before, if last then "└─ " else "├─ ", headline files kind label span, "\n",
      drawAll files (before ++ if last then Text.ofString "   " else Text.ofString "│  ") children]

def drawAll (files : Option FileSet) (before : Text) : List Outline → Text
  | [] => []
  | [only] => draw files before true only
  | first :: next :: rest => draw files before false first ++ drawAll files before (next :: rest)
end

mutual
def toJson : Outline → Json
  | entry kind label span children =>
    .ofGroups [[("type", .string kind)], Json.optionalString "label" label, [("span", span.toJson)],
      Json.optionalArray "children" (toJsons children)]

def toJsons : List Outline → List Json
  | [] => []
  | first :: rest => toJson first :: toJsons rest
end

end Outline

mutual
def Expr.outline : Expr → Outline
  | .name called _ => .leaf "Ident" called
  | .literal _ value _ => .leaf "Lit" value
  | .binary op left right _ => .leaf "Binary" op.spelling [left.outline, right.outline]
  | .unary op operand _ => .leaf "Unary" op.spelling [operand.outline]
  | .step op operand _ => .leaf "Postfix" op.spelling [operand.outline]
  | .conditional test yes no _ => .leaf "Cond" [] [test.outline, yes.outline, no.outline]
  | .call callee typeArgs args _ =>
    .leaf "Call" (if typeArgs.isEmpty then [] else Text.concat ["<", TypeExpr.renderArgs typeArgs, ">"])
      (callee.outline :: Expr.outlines args)
  | .member object field arrow _ =>
    .leaf "Member" ((if arrow then Text.ofString "->" else Text.ofString ".") ++ field) [object.outline]
  | .index object position _ => .leaf "Index" [] [object.outline, position.outline]
  | .sizeofType type _ => .leaf "Sizeof" type.render
  | .sizeofExpr operand _ => .leaf "Sizeof" [] [operand.outline]
  | .cast type operand _ => .leaf "Cast" type.render [operand.outline]
  | .paren inner _ => .leaf "Paren" [] [inner.outline]
  | .initList elems _ =>
    .leaf "InitList" (Text.concat ["(elems: ", Text.ofNat elems.length, ")"]) (Expr.outlines elems)

def Expr.outlines : List Expr → List Outline
  | [] => []
  | first :: rest => first.outline :: Expr.outlines rest
end

def Dimensions.declared (type : TypeExpr) (name : Text) (dims : Dimensions) : Text :=
  Text.concat [type.render, " ", name, Text.replicate dims.length "[]"]

def Declarator.outline (declarator : Declarator) : Outline :=
  .leaf "Declarator" (declarator.dims.declared declarator.type declarator.name)
    (declarator.init.toList.map Expr.outline)

def VarDecl.outline (decl : VarDecl) : Outline :=
  .entry "Var" decl.storage.render.trim decl.loc (decl.vars.map Declarator.outline)

def ForInit.outlines : ForInit → List Outline
  | absent => []
  | vars decl => [.leaf "Init" [] [decl.outline]]
  | expr value loc => [.leaf "Init" [] [.entry "ExprStmt" [] loc [value.outline]]]

mutual
def Stmt.outline : Stmt → Outline
  | .block stmts loc =>
    .entry "Block" (Text.concat ["(stmts: ", Text.ofNat stmts.length, ")"]) loc (Stmt.outlines stmts)
  | .ret value loc => .entry "Return" [] loc (value.toList.map Expr.outline)
  | .ifThen test yes loc => .entry "If" [] loc [test.outline, yes.outline]
  | .ifElse test yes no loc => .entry "If" [] loc [test.outline, yes.outline, .leaf "Else" [] [no.outline]]
  | .whileLoop test body loc => .entry "While" [] loc [test.outline, body.outline]
  | .doWhile body test loc => .entry "DoWhile" [] loc [body.outline, test.outline]
  | .forLoop init test post body loc =>
    .entry "For" [] loc (init.outlines ++ test.toList.map (fun test => .leaf "Cond" [] [test.outline]) ++
      post.toList.map (fun post => .leaf "Post" [] [post.outline]) ++ [body.outline])
  | .breakLoop loc => .entry "Break" [] loc []
  | .continueLoop loc => .entry "Continue" [] loc []
  | .empty loc => .entry "Empty" [] loc []
  | .expr value loc => .entry "ExprStmt" [] loc [value.outline]
  | .vars decl => decl.outline

def Stmt.outlines : List Stmt → List Outline
  | [] => []
  | first :: rest => first.outline :: Stmt.outlines rest
end

def TypeParam.renderList (params : List TypeParam) : Text :=
  if params.isEmpty then [] else Text.concat ["<", Text.joinWith ", " (params.map (·.name)), ">"]

def StructDecl.outline (decl : StructDecl) : Outline :=
  .entry (if decl.isUnion then "Union" else "Struct")
    (Text.concat [decl.name, TypeParam.renderList decl.typeParams, if decl.fields.isNone then " (forward)" else ""])
    decl.loc
    (decl.fieldList.map fun field => .leaf "Field" (field.dims.declared field.type field.name))

def FuncDecl.outline (decl : FuncDecl) : Outline :=
  let params := decl.params.map (fun param => Text.trim (Text.concat [param.type.render, " ", param.name])) ++
    if decl.variadic then [Text.ofString "..."] else []
  .entry (if decl.body.isNone then "Prototype" else "Func")
    (Text.concat [decl.storage.render, decl.result.render, " ", decl.name, TypeParam.renderList decl.typeParams,
      "(", Text.joinWith ", " params, ")"])
    decl.loc (decl.body.toList.map fun body => body.toStmt.outline)

def TypedefDecl.outline (decl : TypedefDecl) : Outline :=
  .entry "Typedef" (Text.concat [decl.name, " = ", decl.target.render]) decl.loc
    (match decl.target with
      | .type _ => []
      | .body struct => [struct.outline])

def EnumDecl.outline (decl : EnumDecl) : Outline :=
  .entry "Enum" decl.name decl.loc
    (decl.items.map fun item => .leaf "Enumerator" item.name (item.value.toList.map Expr.outline))

def Decl.outline : Decl → Outline
  | struct decl => decl.outline
  | function decl => decl.outline
  | vars decl => decl.outline
  | typedef decl => decl.outline
  | enum decl => decl.outline
  | inclusion target _ loc =>
    .entry "Include" (if target.system then Text.concat ["<", target.path, ">"] else target.path.quoted) loc []
  | directive line loc => .entry "Directive" line.trim loc []

namespace Program

def headline (program : Program) (files : Option FileSet) : Text :=
  let name := (files.bind (·.displayPath? program.file (some .auto))).getD "Program"
  Text.concat [name, " (decls: ", Text.ofNat program.decls.length, ")"]

def outline (program : Program) (files : Option FileSet) : Text :=
  Text.concat [program.headline files, "\n", Outline.drawAll files [] (program.decls.map Decl.outline)]

def jsonOutline (program : Program) : Text :=
  (Outline.leaf "Program" (program.headline none) (program.decls.map Decl.outline)).toJson.document

end Program
end GenericC
