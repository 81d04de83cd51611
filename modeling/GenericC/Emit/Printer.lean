import GenericC.Generics.Uses

/-! Declarations as C text. Generic types and calls of generic functions are written under their C
names, with the type parameters in scope replaced; everything else is written as in the source. -/

namespace GenericC

structure Printer where
  index : Index
  /-- The C names of structs that are also C names of functions. They have no typedef and are written with
  their keyword. -/
  tagged : List Text := []
  subst : Subst := {}

namespace Printer

def withSubst (printer : Printer) (subst : Subst) : Printer := { printer with subst }

/-- A type without type parameters. Type arguments of something that is not generic are left out. -/
def render (printer : Printer) : TypeExpr → Text
  | .absent => "void"
  | .named name _ => name
  | .pointer elem _ => printer.render elem ++ [Text.byte '*']
  | .applied name args _ =>
    match printer.index.struct? name with
    | none => name
    | some decl =>
      let mangled := mangle name args
      if printer.tagged.contains mangled then Text.concat [decl.keyword, " ", mangled] else mangled

def type (printer : Printer) (type : TypeExpr) : Text := printer.render (printer.subst.type type)

/-- What is wrong with a type without type parameters: arguments of something that is not generic. -/
def renderProblem? (printer : Printer) : TypeExpr → Option Diagnostic
  | .pointer elem _ => printer.renderProblem? elem
  | .applied name args loc =>
    let shown := (TypeExpr.applied name args loc).render
    if (printer.index.struct? name).isSome then none
    else if printer.index.plain.contains name then
      some (.ofWarning .notGeneric loc
        (Text.concat [name, " is not generic; type arguments in ", shown, " are ignored"]))
    else some (.ofWarning .notGeneric loc
      (Text.concat ["unknown generic type ", shown, "; emitted as ", name]))
  | _ => none

/-- The types that are written for labels in the order of the source. The type arguments of a call only become part
of a name, and the variables of a declaration share the type of the first one. -/
def writtenTypes (shared : Bool) : List NodeLabel → List TypeExpr
  | [] => []
  | label :: rest =>
    if label.kind = .declarator then (if shared then [] else label.types) ++ writtenTypes true rest
    else (if label.kind = .call then [] else label.types) ++ writtenTypes (label.kind ≠ .vars && shared) rest

def problems (printer : Printer) (tree : Node) : List Diagnostic :=
  (writtenTypes false tree.labels).filterMap fun type => printer.renderProblem? (printer.subst.type type)

/-- A blank between an operator and its operand, where without it both would run together. -/
def operandGap (op operand : Text) : Text :=
  match operand.head?, op.getLast? with
  | some first, some last =>
    if first = last && (first = Text.byte '+' || first = Text.byte '-' || first = Text.byte '&') then " " else ""
  | _, _ => ""

def genericCallee? (printer : Printer) (callee : Expr) (typeArgs : List TypeExpr) : Option Text :=
  if typeArgs.isEmpty || callee.calleeName.isEmpty then none
  else if (printer.index.func? callee.calleeName).isSome then
    some (mangle callee.calleeName (printer.subst.types typeArgs))
  else some callee.calleeName

mutual
def expr (printer : Printer) : Expr → Text
  | .name called _ => called
  | .literal _ value _ => value
  | .binary op left right _ =>
    if op = .comma then Text.concat [printer.expr left, ", ", printer.expr right]
    else Text.concat [printer.expr left, " ", op.spelling, " ", printer.expr right]
  | .unary op operand _ =>
    let operand := printer.expr operand
    Text.concat [op.spelling, operandGap op.spelling operand, operand]
  | .step op operand _ => Text.concat [printer.expr operand, op.spelling]
  | .conditional test yes no _ =>
    Text.concat [printer.expr test, " ? ", printer.expr yes, " : ", printer.expr no]
  | .call callee typeArgs args _ =>
    let called := match printer.genericCallee? callee typeArgs with
      | some name => name
      | none => printer.expr callee
    Text.concat [called, "(", printer.exprs args, ")"]
  | .member object field arrow _ => Text.concat [printer.expr object, if arrow then "->" else ".", field]
  | .index object position _ => Text.concat [printer.expr object, "[", printer.expr position, "]"]
  | .sizeofType type _ => Text.concat ["sizeof(", printer.type type, ")"]
  | .sizeofExpr operand _ =>
    match operand with
    | .paren _ _ => Text.concat ["sizeof", printer.expr operand]
    | _ => Text.concat ["sizeof ", printer.expr operand]
  | .cast type operand _ => Text.concat ["(", printer.type type, ")", printer.expr operand]
  | .paren inner _ => Text.concat ["(", printer.expr inner, ")"]
  | .initList elems _ => Text.concat ["\x7b", printer.exprs elems, "\x7d"]

def exprs (printer : Printer) : List Expr → Text
  | [] => []
  | [only] => printer.expr only
  | first :: next :: rest => Text.concat [printer.expr first, ", ", printer.exprs (next :: rest)]
end

def optionalExpr (printer : Printer) (value : Option Expr) : Text := (value.map printer.expr).getD []

def dimensions (printer : Printer) (dims : Dimensions) : Text :=
  dims.flatMap fun size => Text.concat ["[", printer.optionalExpr size, "]"]

def declared (printer : Printer) (type : TypeExpr) (name : Text) (dims : Dimensions) : Text :=
  Text.concat [printer.type type, if name.isEmpty then "" else Text.concat [" ", name], printer.dimensions dims]

def initial (printer : Printer) (init : Option Expr) : Text :=
  match init with
  | some value => Text.concat [" = ", printer.expr value]
  | none => []

/-- A variable of several that share a base type, with its own stars. -/
def sharedDeclarator (printer : Printer) (declarator : Declarator) : Text :=
  Text.concat [List.replicate (printer.subst.type declarator.type).pointerDepth (Text.byte '*'), declarator.name,
    printer.dimensions declarator.dims, printer.initial declarator.init]

/-- Variables without the semicolon. A single one keeps its stars with its type. -/
def vars (printer : Printer) (decl : VarDecl) : Text :=
  match decl.vars with
  | [] => decl.storage.render
  | [only] =>
    Text.concat [decl.storage.render, printer.declared only.type only.name only.dims, printer.initial only.init]
  | first :: _ =>
    Text.concat [decl.storage.render, printer.render (printer.subst.type first.type).base, " ",
      Text.joinWith ", " (decl.vars.map printer.sharedDeclarator)]

def signature (printer : Printer) (decl : FuncDecl) (name : Text) : Text :=
  let params := decl.params.map fun param => printer.declared param.type param.name param.dims
  let params := if decl.variadic then params ++ [Text.ofString "..."] else params
  Text.concat [decl.storage.render, printer.type decl.result, " ", name, "(",
    if params.isEmpty then "void" else Text.joinWith ", " params, ")"]

def indent (level : Nat) : Text := Text.replicate level "    "

def fields (printer : Printer) (fields : List Field) : Text :=
  Text.concat ["\x7b\n",
    fields.flatMap fun field =>
      Text.concat [indent 1, printer.declared field.type field.name field.dims, ";\n"],
    "\x7d"]

def enumItem (printer : Printer) (item : EnumItem) : Text :=
  Text.concat [indent 1, item.name, printer.initial item.value]

def enum (printer : Printer) (decl : EnumDecl) : Text :=
  Text.concat ["enum ", if decl.name.isEmpty then "" else Text.concat [decl.name, " "], "\x7b\n",
    Text.joinWith ",\n" (decl.items.map printer.enumItem), if decl.items.isEmpty then "" else "\n", "\x7d;\n\n"]

def typedef (printer : Printer) (decl : TypedefDecl) : Text :=
  match decl.target with
  | .type type => Text.concat ["typedef ", printer.declared type decl.name decl.dims, ";\n"]
  | .body struct =>
    Text.concat ["typedef ", struct.keyword, " ", if struct.name.isEmpty then "" else Text.concat [struct.name, " "],
      printer.fields struct.fieldList, " ", decl.name, printer.dimensions decl.dims, ";\n\n"]

def forInit (printer : Printer) : ForInit → Text
  | .absent => []
  | .vars decl => printer.vars decl
  | .expr value _ => printer.expr value

end Printer

def Stmt.isBlock : Stmt → Bool
  | block _ _ => true
  | _ => false

def Stmt.isBranch : Stmt → Bool
  | ifThen _ _ _ => true
  | ifElse _ _ _ _ => true
  | _ => false

namespace Printer

def spaced (printer : Printer) (value : Option Expr) : Text :=
  match value with
  | some value => Text.byte ' ' :: printer.expr value
  | none => []

mutual
/-- A statement that begins at the current column of a line indented to `level`, without its last newline. The
body of a control statement stands on the same line if it is a block, and else on a line of its own. -/
def stmt (printer : Printer) (level : Nat) : Stmt → Text
  | .block stmts _ => Text.concat ["\x7b\n", printer.stmts (level + 1) stmts, indent level, "\x7d"]
  | .ret value _ => Text.concat ["return", printer.spaced value, ";"]
  | .ifThen test yes _ =>
    Text.concat ["if (", printer.expr test, ")",
      if yes.isBlock then Text.byte ' ' :: printer.stmt level yes
      else Text.concat ["\n", indent (level + 1), printer.stmt (level + 1) yes]]
  | .ifElse test yes no _ =>
    Text.concat ["if (", printer.expr test, ")",
      if yes.isBlock then Text.concat [" ", printer.stmt level yes, " else"]
      else Text.concat ["\n", indent (level + 1), printer.stmt (level + 1) yes, "\n", indent level, "else"],
      if no.isBlock || no.isBranch then Text.byte ' ' :: printer.stmt level no
      else Text.concat ["\n", indent (level + 1), printer.stmt (level + 1) no]]
  | .whileLoop test body _ =>
    Text.concat ["while (", printer.expr test, ")",
      if body.isBlock then Text.byte ' ' :: printer.stmt level body
      else Text.concat ["\n", indent (level + 1), printer.stmt (level + 1) body]]
  | .doWhile body test _ =>
    Text.concat ["do",
      if body.isBlock then Text.concat [" ", printer.stmt level body, " "]
      else Text.concat ["\n", indent (level + 1), printer.stmt (level + 1) body, "\n", indent level],
      "while (", printer.expr test, ");"]
  | .forLoop init test post body _ =>
    Text.concat ["for (", printer.forInit init, ";", printer.spaced test, ";", printer.spaced post, ")",
      if body.isBlock then Text.byte ' ' :: printer.stmt level body
      else Text.concat ["\n", indent (level + 1), printer.stmt (level + 1) body]]
  | .breakLoop _ => "break;"
  | .continueLoop _ => "continue;"
  | .empty _ => ";"
  | .expr value _ => Text.concat [printer.expr value, ";"]
  | .vars decl => Text.concat [printer.vars decl, ";"]

def stmts (printer : Printer) (level : Nat) : List Stmt → Text
  | [] => []
  | first :: rest => Text.concat [indent level, printer.stmt level first, "\n", printer.stmts level rest]
end

def function (printer : Printer) (decl : FuncDecl) (name : Text) (body : Block) : Text :=
  Text.concat [printer.signature decl name, " ", printer.stmt 0 body.toStmt, "\n\n"]

def struct (printer : Printer) (decl : StructDecl) : Text :=
  match decl.fields with
  | none => Text.concat [decl.keyword, " ", decl.name, ";\n"]
  | some fields => Text.concat [decl.keyword, " ", decl.name, " ", printer.fields fields, ";\n\n"]

end Printer
end GenericC
