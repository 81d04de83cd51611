import GenericC.Program.Decl

/-! Programs as plain trees. Each node carries where it is written and the types written directly
on it, so that whatever has to visit every node, or every type, needs no case for each construct. -/

namespace GenericC

inductive NodeKind
  | structDecl | field | function | param | vars | declarator | typedef | enum | inclusion | directive
  | block | ret | branch | whileLoop | doWhile | forLoop | breakLoop | continueLoop | empty | exprStmt
  | name | literal | binary | unary | conditional | call | member | index | sizeof | cast | paren | initList
deriving DecidableEq, Repr

def NodeKind.title : NodeKind → Text
  | structDecl => "StructDecl"
  | field => "Field"
  | function => "FuncDecl"
  | param => "Param"
  | vars => "VarDecl"
  | declarator => "Declarator"
  | typedef => "TypedefDecl"
  | enum => "EnumDecl"
  | inclusion => "IncludeDecl"
  | directive => "DirectiveDecl"
  | block => "BlockStmt"
  | ret => "ReturnStmt"
  | branch => "IfStmt"
  | whileLoop => "WhileStmt"
  | doWhile => "DoWhileStmt"
  | forLoop => "ForStmt"
  | breakLoop => "BreakStmt"
  | continueLoop => "ContinueStmt"
  | empty => "EmptyStmt"
  | exprStmt => "ExprStmt"
  | name => "Ident"
  | literal => "BasicLit"
  | binary => "BinaryExpr"
  | unary => "UnaryExpr"
  | conditional => "ConditionalExpr"
  | call => "CallExpr"
  | member => "MemberExpr"
  | index => "IndexExpr"
  | sizeof => "SizeofExpr"
  | cast => "CastExpr"
  | paren => "ParenExpr"
  | initList => "InitList"

/-- What a node says of itself: its kind, its place, the types written on it but not on its children,
and for a call of a named function that name. -/
structure NodeLabel where
  kind : NodeKind
  span : Span
  types : List TypeExpr := []
  callee : Text := []
deriving Repr

inductive Node
  | node (label : NodeLabel) (children : List Node)
deriving Repr

namespace Node

def label : Node → NodeLabel
  | node label _ => label

mutual
/-- The labels in the order of the source, a node before its children. Below a node that `opens` refuses
nothing is visited. -/
def visit (opens : NodeLabel → Bool) : Node → List NodeLabel
  | node label children => label :: if opens label then visitAll opens children else []

def visitAll (opens : NodeLabel → Bool) : List Node → List NodeLabel
  | [] => []
  | first :: rest => visit opens first ++ visitAll opens rest
end

def labels (tree : Node) : List NodeLabel := tree.visit fun _ => true

end Node

mutual
def Expr.toNode : Expr → Node
  | .name _ loc => .node { kind := .name, span := loc } []
  | .literal _ _ loc => .node { kind := .literal, span := loc } []
  | .binary _ left right loc => .node { kind := .binary, span := loc } [left.toNode, right.toNode]
  | .unary _ operand loc => .node { kind := .unary, span := loc } [operand.toNode]
  | .step _ operand loc => .node { kind := .unary, span := loc } [operand.toNode]
  | .conditional test yes no loc =>
    .node { kind := .conditional, span := loc } [test.toNode, yes.toNode, no.toNode]
  | .call callee typeArgs args loc =>
    .node { kind := .call, span := loc, types := typeArgs, callee := callee.calleeName }
      (callee.toNode :: Expr.toNodes args)
  | .member object _ _ loc => .node { kind := .member, span := loc } [object.toNode]
  | .index object position loc => .node { kind := .index, span := loc } [object.toNode, position.toNode]
  | .sizeofType type loc => .node { kind := .sizeof, span := loc, types := [type] } []
  | .sizeofExpr operand loc => .node { kind := .sizeof, span := loc } [operand.toNode]
  | .cast type operand loc => .node { kind := .cast, span := loc, types := [type] } [operand.toNode]
  | .paren inner loc => .node { kind := .paren, span := loc } [inner.toNode]
  | .initList elems loc => .node { kind := .initList, span := loc } (Expr.toNodes elems)

def Expr.toNodes : List Expr → List Node
  | [] => []
  | first :: rest => first.toNode :: Expr.toNodes rest
end

def Expr.optionalNodes (value : Option Expr) : List Node := value.toList.map Expr.toNode

def Dimensions.toNodes (dims : Dimensions) : List Node := (dims.filterMap id).map Expr.toNode

def Declarator.toNode (declarator : Declarator) : Node :=
  .node { kind := .declarator, span := declarator.loc, types := [declarator.type] }
    (declarator.dims.toNodes ++ Expr.optionalNodes declarator.init)

def VarDecl.toNode (decl : VarDecl) : Node :=
  .node { kind := .vars, span := decl.loc } (decl.vars.map Declarator.toNode)

def ForInit.toNodes : ForInit → List Node
  | absent => []
  | vars decl => [decl.toNode]
  | expr value loc => [.node { kind := .exprStmt, span := loc } [value.toNode]]

mutual
def Stmt.toNode : Stmt → Node
  | .block stmts loc => .node { kind := .block, span := loc } (Stmt.toNodes stmts)
  | .ret value loc => .node { kind := .ret, span := loc } (Expr.optionalNodes value)
  | .ifThen test yes loc => .node { kind := .branch, span := loc } [test.toNode, yes.toNode]
  | .ifElse test yes no loc => .node { kind := .branch, span := loc } [test.toNode, yes.toNode, no.toNode]
  | .whileLoop test body loc => .node { kind := .whileLoop, span := loc } [test.toNode, body.toNode]
  | .doWhile body test loc => .node { kind := .doWhile, span := loc } [body.toNode, test.toNode]
  | .forLoop init test post body loc =>
    .node { kind := .forLoop, span := loc }
      (init.toNodes ++ Expr.optionalNodes test ++ Expr.optionalNodes post ++ [body.toNode])
  | .breakLoop loc => .node { kind := .breakLoop, span := loc } []
  | .continueLoop loc => .node { kind := .continueLoop, span := loc } []
  | .empty loc => .node { kind := .empty, span := loc } []
  | .expr value loc => .node { kind := .exprStmt, span := loc } [value.toNode]
  | .vars decl => decl.toNode

def Stmt.toNodes : List Stmt → List Node
  | [] => []
  | first :: rest => first.toNode :: Stmt.toNodes rest
end

def Field.toNode (field : Field) : Node :=
  .node { kind := .field, span := field.loc, types := [field.type] } field.dims.toNodes

def Param.toNode (param : Param) : Node :=
  .node { kind := .param, span := param.loc, types := [param.type] } param.dims.toNodes

def StructDecl.toNode (decl : StructDecl) : Node :=
  .node { kind := .structDecl, span := decl.loc } (decl.fieldList.map Field.toNode)

def FuncDecl.toNode (decl : FuncDecl) : Node :=
  .node { kind := .function, span := decl.loc, types := [decl.result] }
    (decl.params.map Param.toNode ++ decl.body.toList.map fun body => body.toStmt.toNode)

def TypedefDecl.toNode (decl : TypedefDecl) : Node :=
  match decl.target with
  | .type type => .node { kind := .typedef, span := decl.loc, types := [type] } decl.dims.toNodes
  | .body struct => .node { kind := .typedef, span := decl.loc } (struct.toNode :: decl.dims.toNodes)

def EnumDecl.toNode (decl : EnumDecl) : Node :=
  .node { kind := .enum, span := decl.loc } (decl.items.flatMap fun item => Expr.optionalNodes item.value)

def Decl.toNode : Decl → Node
  | struct decl => decl.toNode
  | function decl => decl.toNode
  | vars decl => decl.toNode
  | typedef decl => decl.toNode
  | enum decl => decl.toNode
  | inclusion _ _ loc => .node { kind := .inclusion, span := loc } []
  | directive _ loc => .node { kind := .directive, span := loc } []

end GenericC
