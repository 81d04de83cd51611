import GenericC.Emit.Unit
import GenericC.Proofs.WrittenTree
import Mathlib.Data.List.Forall2

/-! Trees of the same form. They have the same words in the same places and differ at most in what their nodes say of
themselves: where they are written, and which types stand on them. What is printed for a tree depends on these labels only
through the text of the types and of the generic functions that are called. -/

namespace GenericC

variable (related : NodeLabel → NodeLabel → Prop)
variable {α : Type} {one other : Option Expr}

/-- What two nodes of one kind say of themselves is related. -/
abbrev Own (kind : NodeKind) (loc loc' : Span) (types types' : List TypeExpr := []) : Prop :=
  related { kind, span := loc, types } { kind, span := loc', types := types' }

/-- Expressions of the same form, the labels of which are related node by node. -/
inductive Expr.Like : Expr → Expr → Prop
  | name {called loc loc'} : Own related .name loc loc' → Like (.name called loc) (.name called loc')
  | literal {kind value loc loc'} : Own related .literal loc loc' →
      Like (.literal kind value loc) (.literal kind value loc')
  | binary {op a a' b b' loc loc'} : Own related .binary loc loc' → Like a a' → Like b b' →
      Like (.binary op a b loc) (.binary op a' b' loc')
  | unary {op a a' loc loc'} : Own related .unary loc loc' → Like a a' → Like (.unary op a loc) (.unary op a' loc')
  | step {op a a' loc loc'} : Own related .unary loc loc' → Like a a' → Like (.step op a loc) (.step op a' loc')
  | conditional {a a' b b' c c' loc loc'} : Own related .conditional loc loc' → Like a a' → Like b b' → Like c c' →
      Like (.conditional a b c loc) (.conditional a' b' c' loc')
  | call {a a' types types' args args' loc loc'} :
      related { kind := .call, span := loc, types, callee := a.calleeName }
        { kind := .call, span := loc', types := types', callee := a'.calleeName } →
      Like a a' → List.Forall₂ Like args args' → Like (.call a types args loc) (.call a' types' args' loc')
  | member {a a' field arrow loc loc'} : Own related .member loc loc' → Like a a' →
      Like (.member a field arrow loc) (.member a' field arrow loc')
  | index {a a' b b' loc loc'} : Own related .index loc loc' → Like a a' → Like b b' →
      Like (.index a b loc) (.index a' b' loc')
  | sizeofType {type type' loc loc'} : Own related .sizeof loc loc' [type] [type'] →
      Like (.sizeofType type loc) (.sizeofType type' loc')
  | sizeofExpr {a a' loc loc'} : Own related .sizeof loc loc' → Like a a' →
      Like (.sizeofExpr a loc) (.sizeofExpr a' loc')
  | cast {type type' a a' loc loc'} : Own related .cast loc loc' [type] [type'] → Like a a' →
      Like (.cast type a loc) (.cast type' a' loc')
  | paren {a a' loc loc'} : Own related .paren loc loc' → Like a a' → Like (.paren a loc) (.paren a' loc')
  | initList {elems elems' loc loc'} : Own related .initList loc loc' → List.Forall₂ Like elems elems' →
      Like (.initList elems loc) (.initList elems' loc')

abbrev Expr.OptionLike : Option Expr → Option Expr → Prop := Option.Rel (Expr.Like related)

abbrev Dimensions.Like : Dimensions → Dimensions → Prop := List.Forall₂ (Expr.OptionLike related)

structure Declarator.Like (one other : Declarator) : Prop where
  own : Own related .declarator one.loc other.loc [one.type] [other.type]
  name : one.name = other.name
  dims : Dimensions.Like related one.dims other.dims
  init : Expr.OptionLike related one.init other.init

structure VarDecl.Like (one other : VarDecl) : Prop where
  own : Own related .vars one.loc other.loc
  storage : one.storage = other.storage
  vars : List.Forall₂ (Declarator.Like related) one.vars other.vars

inductive ForInit.Like : ForInit → ForInit → Prop
  | absent : Like .absent .absent
  | vars {decl decl'} : decl.Like related decl' → Like (.vars decl) (.vars decl')
  | expr {value value' loc loc'} : Own related .exprStmt loc loc' → value.Like related value' →
      Like (.expr value loc) (.expr value' loc')

inductive Stmt.Like : Stmt → Stmt → Prop
  | block {stmts stmts' loc loc'} : Own related .block loc loc' → List.Forall₂ Like stmts stmts' →
      Like (.block stmts loc) (.block stmts' loc')
  | ret {value value' loc loc'} : Own related .ret loc loc' → Expr.OptionLike related value value' →
      Like (.ret value loc) (.ret value' loc')
  | ifThen {test test' a a' loc loc'} : Own related .branch loc loc' → test.Like related test' → Like a a' →
      Like (.ifThen test a loc) (.ifThen test' a' loc')
  | ifElse {test test' a a' b b' loc loc'} : Own related .branch loc loc' → test.Like related test' → Like a a' →
      Like b b' → Like (.ifElse test a b loc) (.ifElse test' a' b' loc')
  | whileLoop {test test' a a' loc loc'} : Own related .whileLoop loc loc' → test.Like related test' → Like a a' →
      Like (.whileLoop test a loc) (.whileLoop test' a' loc')
  | doWhile {test test' a a' loc loc'} : Own related .doWhile loc loc' → Like a a' → test.Like related test' →
      Like (.doWhile a test loc) (.doWhile a' test' loc')
  | forLoop {init init' test test' post post' a a' loc loc'} : Own related .forLoop loc loc' →
      init.Like related init' → Expr.OptionLike related test test' → Expr.OptionLike related post post' → Like a a' →
      Like (.forLoop init test post a loc) (.forLoop init' test' post' a' loc')
  | breakLoop {loc loc'} : Own related .breakLoop loc loc' → Like (.breakLoop loc) (.breakLoop loc')
  | continueLoop {loc loc'} : Own related .continueLoop loc loc' → Like (.continueLoop loc) (.continueLoop loc')
  | empty {loc loc'} : Own related .empty loc loc' → Like (.empty loc) (.empty loc')
  | expr {value value' loc loc'} : Own related .exprStmt loc loc' → value.Like related value' →
      Like (.expr value loc) (.expr value' loc')
  | vars {decl decl'} : decl.Like related decl' → Like (.vars decl) (.vars decl')

abbrev Block.Like (one other : Block) : Prop := one.toStmt.Like related other.toStmt

structure Field.Like (one other : Field) : Prop where
  own : Own related .field one.loc other.loc [one.type] [other.type]
  name : one.name = other.name
  dims : Dimensions.Like related one.dims other.dims

structure Param.Like (one other : Param) : Prop where
  own : Own related .param one.loc other.loc [one.type] [other.type]
  name : one.name = other.name
  dims : Dimensions.Like related one.dims other.dims

structure StructDecl.Like (one other : StructDecl) : Prop where
  own : Own related .structDecl one.loc other.loc
  isUnion : one.isUnion = other.isUnion
  name : one.name = other.name
  generic : one.isGeneric = other.isGeneric
  fields : Option.Rel (List.Forall₂ (Field.Like related)) one.fields other.fields

structure FuncDecl.Like (one other : FuncDecl) : Prop where
  own : Own related .function one.loc other.loc [one.result] [other.result]
  storage : one.storage = other.storage
  name : one.name = other.name
  generic : one.isGeneric = other.isGeneric
  params : List.Forall₂ (Param.Like related) one.params other.params
  variadic : one.variadic = other.variadic
  body : Option.Rel (Block.Like related) one.body other.body

inductive TypedefDecl.Like : TypedefDecl → TypedefDecl → Prop
  | type {type type' name dims dims' loc loc'} : Own related .typedef loc loc' [type] [type'] →
      Dimensions.Like related dims dims' → Like ⟨.type type, name, dims, loc⟩ ⟨.type type', name, dims', loc'⟩
  | body {struct struct' name dims dims' loc loc'} : Own related .typedef loc loc' → struct.Like related struct' →
      Dimensions.Like related dims dims' → Like ⟨.body struct, name, dims, loc⟩ ⟨.body struct', name, dims', loc'⟩

structure EnumItem.Like (one other : EnumItem) : Prop where
  name : one.name = other.name
  value : Expr.OptionLike related one.value other.value

structure EnumDecl.Like (one other : EnumDecl) : Prop where
  own : Own related .enum one.loc other.loc
  name : one.name = other.name
  items : List.Forall₂ (EnumItem.Like related) one.items other.items

inductive Decl.Like : Decl → Decl → Prop
  | struct {decl decl'} : decl.Like related decl' → Like (.struct decl) (.struct decl')
  | function {decl decl'} : decl.Like related decl' → Like (.function decl) (.function decl')
  | vars {decl decl'} : decl.Like related decl' → Like (.vars decl) (.vars decl')
  | typedef {decl decl'} : decl.Like related decl' → Like (.typedef decl) (.typedef decl')
  | enum {decl decl'} : decl.Like related decl' → Like (.enum decl) (.enum decl')
  | inclusion {target line loc loc'} : Own related .inclusion loc loc' →
      Like (.inclusion target line loc) (.inclusion target line loc')
  | directive {line loc loc'} : Own related .directive loc loc' → Like (.directive line loc) (.directive line loc')

variable {related}

theorem rel_toList {like : α → α → Prop} {one other : Option α} (rel : Option.Rel like one other) :
    List.Forall₂ like one.toList other.toList := by
  cases rel with
  | none => exact .nil
  | some rel => exact .cons rel .nil

theorem rel_getD {like : α → α → Prop} {one other : Option (List α)} (rel : Option.Rel (List.Forall₂ like) one other) :
    List.Forall₂ like (one.getD []) (other.getD []) := by
  cases rel with
  | none => exact .nil
  | some rel => exact rel

theorem rel_map_right {like : α → α → Prop} {image : α → α} (each : ∀ item, like item (image item)) (value : Option α) :
    Option.Rel like value (value.map image) := by
  cases value with
  | none => exact .none
  | some value => exact .some (each value)

theorem forall₂_map_right {like : α → α → Prop} {image : α → α} (each : ∀ item, like item (image item)) (items : List α) :
    List.Forall₂ like items (items.map image) := by
  rw [List.forall₂_map_right_iff]
  exact List.forall₂_same.mpr fun item _ => each item

variable (related) in
def Node.Like (one other : Node) : Prop := List.Forall₂ related one.labels other.labels

variable (related) in
abbrev Node.AllLike : List Node → List Node → Prop := List.Forall₂ (Node.Like related)

theorem Node.Like.node {label label' : NodeLabel} {children children' : List Node} (own : related label label')
    (below : Node.AllLike related children children') :
    Node.Like related (.node label children) (.node label' children') := by
  rw [Node.Like, Node.labels_node, Node.labels_node]
  exact .cons own (List.rel_flatMap below fun _ _ like => like)

theorem Node.Like.labels_eq {image : NodeLabel → NodeLabel} {one other : Node}
    (like : one.Like (fun label label' => image label = label') other) : one.labels.map image = other.labels := by
  rw [← List.forall₂_eq_eq_eq]
  exact List.forall₂_map_left_iff.mpr like

mutual
theorem Expr.Like.toNode {one other : Expr} (like : one.Like related other) : one.toNode.Like related other.toNode := by
  cases like with
  | name own | literal own | sizeofType own => exact .node own .nil
  | unary own inner | step own inner | member own inner | sizeofExpr own inner | cast own inner | paren own inner =>
    exact .node own (.cons inner.toNode .nil)
  | binary own left right | index own left right => exact .node own (.cons left.toNode (.cons right.toNode .nil))
  | conditional own test yes no => exact .node own (.cons test.toNode (.cons yes.toNode (.cons no.toNode .nil)))
  | call own callee args => exact .node own (.cons callee.toNode (Expr.Like.toNodes args))
  | initList own elems => exact .node own (Expr.Like.toNodes elems)

theorem Expr.Like.toNodes {one other : List Expr} (like : List.Forall₂ (Expr.Like related) one other) :
    Node.AllLike related (Expr.toNodes one) (Expr.toNodes other) := by
  cases like with
  | nil => exact .nil
  | cons first rest => exact .cons first.toNode (Expr.Like.toNodes rest)
end

theorem Node.AllLike.map {like : α → α → Prop} (toNode : α → Node)
    (each : ∀ {one other}, like one other → (toNode one).Like related (toNode other)) {one other : List α}
    (all : List.Forall₂ like one other) : Node.AllLike related (one.map toNode) (other.map toNode) :=
  List.rel_map (fun _ _ like => each like) all

theorem Expr.OptionLike.toNodes (like : OptionLike related one other) :
    Node.AllLike related (Expr.optionalNodes one) (Expr.optionalNodes other) :=
  .map Expr.toNode Expr.Like.toNode (rel_toList like)

theorem Dimensions.Like.toNodes {one other : Dimensions} (like : Dimensions.Like related one other) :
    Node.AllLike related one.toNodes other.toNodes := by
  induction like with
  | nil => exact .nil
  | cons first rest ih =>
    cases first with
    | none => exact ih
    | some first => exact .cons first.toNode ih

theorem Declarator.Like.toNode {one other : Declarator} (like : one.Like related other) :
    one.toNode.Like related other.toNode :=
  .node like.own (List.rel_append like.dims.toNodes like.init.toNodes)

theorem VarDecl.Like.toNode {one other : VarDecl} (like : one.Like related other) :
    one.toNode.Like related other.toNode :=
  .node like.own (.map Declarator.toNode Declarator.Like.toNode like.vars)

theorem ForInit.Like.toNodes {one other : ForInit} (like : one.Like related other) :
    Node.AllLike related one.toNodes other.toNodes := by
  cases like with
  | absent => exact .nil
  | vars decl => exact .cons decl.toNode .nil
  | expr own value => exact .cons (.node own (.cons value.toNode .nil)) .nil

mutual
theorem Stmt.Like.toNode {one other : Stmt} (like : one.Like related other) : one.toNode.Like related other.toNode := by
  cases like with
  | block own stmts => exact .node own (Stmt.Like.toNodes stmts)
  | ret own value => exact .node own value.toNodes
  | ifThen own test body | whileLoop own test body => exact .node own (.cons test.toNode (.cons body.toNode .nil))
  | doWhile own body test => exact .node own (.cons body.toNode (.cons test.toNode .nil))
  | ifElse own test yes no => exact .node own (.cons test.toNode (.cons yes.toNode (.cons no.toNode .nil)))
  | forLoop own init test post body =>
    exact .node own (List.rel_append (List.rel_append (List.rel_append init.toNodes test.toNodes) post.toNodes)
      (.cons body.toNode .nil))
  | breakLoop own | continueLoop own | empty own => exact .node own .nil
  | expr own value => exact .node own (.cons value.toNode .nil)
  | vars decl => exact decl.toNode

theorem Stmt.Like.toNodes {one other : List Stmt} (like : List.Forall₂ (Stmt.Like related) one other) :
    Node.AllLike related (Stmt.toNodes one) (Stmt.toNodes other) := by
  cases like with
  | nil => exact .nil
  | cons first rest => exact .cons first.toNode (Stmt.Like.toNodes rest)
end

theorem Field.Like.toNode {one other : Field} (like : one.Like related other) : one.toNode.Like related other.toNode :=
  .node like.own like.dims.toNodes

theorem Param.Like.toNode {one other : Param} (like : one.Like related other) : one.toNode.Like related other.toNode :=
  .node like.own like.dims.toNodes

theorem StructDecl.Like.fieldList {one other : StructDecl} (like : one.Like related other) :
    List.Forall₂ (Field.Like related) one.fieldList other.fieldList := rel_getD like.fields

theorem StructDecl.Like.toNode {one other : StructDecl} (like : one.Like related other) :
    one.toNode.Like related other.toNode :=
  .node like.own (.map Field.toNode Field.Like.toNode like.fieldList)

theorem FuncDecl.Like.toNode {one other : FuncDecl} (like : one.Like related other) :
    one.toNode.Like related other.toNode :=
  .node like.own (List.rel_append (Node.AllLike.map Param.toNode Param.Like.toNode like.params)
    (Node.AllLike.map (fun body => body.toStmt.toNode) Stmt.Like.toNode (rel_toList like.body)))

theorem TypedefDecl.Like.toNode {one other : TypedefDecl} (like : one.Like related other) :
    one.toNode.Like related other.toNode := by
  cases like with
  | type own dims => exact .node own dims.toNodes
  | body own struct dims => exact .node own (.cons struct.toNode dims.toNodes)

theorem EnumDecl.Like.toNode {one other : EnumDecl} (like : one.Like related other) :
    one.toNode.Like related other.toNode :=
  .node like.own (List.rel_flatMap like.items fun _ _ item => item.value.toNodes)

theorem Decl.Like.toNode {one other : Decl} (like : one.Like related other) : one.toNode.Like related other.toNode := by
  cases like with
  | struct decl | function decl | vars decl | typedef decl | enum decl => exact decl.toNode
  | inclusion own | directive own => exact .node own .nil

theorem Node.forall_labels {P : NodeLabel → Prop} {label : NodeLabel} {children : List Node} :
    (∀ own ∈ (Node.node label children).labels, P own) ↔ P label ∧ ∀ child ∈ children, ∀ own ∈ child.labels, P own := by
  simp only [Node.labels_node, List.forall_mem_cons, List.forall_mem_flatMap]

variable (related) in
/-- What every node of a tree says of itself is related to itself. -/
abbrev Node.Own (tree : Node) : Prop := ∀ label ∈ tree.labels, related label label

mutual
theorem Expr.like_self (expr : Expr) (all : expr.toNode.Own related) : expr.Like related expr := by
  -- For every construct `all` becomes what holds of the node itself, and then of one child after the other.
  cases expr <;> simp only [Expr.toNode, Node.Own, Node.forall_labels, List.forall_mem_cons] at all
  case name | literal | sizeofType =>
    constructor
    exact all.1
  case unary a loc | step op a loc | member a _ _ loc | sizeofExpr a loc | cast _ a loc | paren a loc =>
    constructor
    exacts [all.1, a.like_self all.2.1]
  case binary op a b loc | index a b loc =>
    constructor
    exacts [all.1, a.like_self all.2.1, b.like_self all.2.2.1]
  case conditional a b c loc =>
    exact .conditional all.1 (a.like_self all.2.1) (b.like_self all.2.2.1) (c.like_self all.2.2.2.1)
  case call callee types args loc => exact .call all.1 (callee.like_self all.2.1) (Expr.likes_self args all.2.2)
  case initList elems loc => exact .initList all.1 (Expr.likes_self elems all.2)

theorem Expr.likes_self (exprs : List Expr) (all : ∀ node ∈ Expr.toNodes exprs, node.Own related) :
    List.Forall₂ (Expr.Like related) exprs exprs := by
  cases exprs with
  | nil => exact .nil
  | cons first rest =>
    simp only [Expr.toNodes, List.forall_mem_cons] at all
    exact .cons (first.like_self all.1) (Expr.likes_self rest all.2)
end

theorem Expr.optionLike_self (value : Option Expr) (all : ∀ node ∈ Expr.optionalNodes value, node.Own related) :
    Expr.OptionLike related value value := by
  cases value with
  | none => exact .none
  | some value => exact .some (value.like_self (all _ List.mem_cons_self))

theorem Dimensions.like_self (dims : Dimensions) (all : ∀ node ∈ dims.toNodes, node.Own related) :
    Dimensions.Like related dims dims := by
  refine List.forall₂_same.mpr fun size member => ?_
  cases size with
  | none => exact .none
  | some value => exact .some (value.like_self (all _ (List.mem_map_of_mem (List.mem_filterMap.mpr ⟨_, member, rfl⟩))))

theorem Declarator.like_self (declarator : Declarator) (all : declarator.toNode.Own related) :
    declarator.Like related declarator := by
  simp only [Declarator.toNode, Node.Own, Node.forall_labels, List.forall_mem_append] at all
  exact ⟨all.1, rfl, declarator.dims.like_self all.2.1, Expr.optionLike_self _ all.2.2⟩

theorem VarDecl.like_self (decl : VarDecl) (all : decl.toNode.Own related) : decl.Like related decl := by
  simp only [VarDecl.toNode, Node.Own, Node.forall_labels, List.forall_mem_map] at all
  exact ⟨all.1, rfl, List.forall₂_same.mpr fun declarator member => declarator.like_self (all.2 declarator member)⟩

theorem ForInit.like_self (init : ForInit) (all : ∀ node ∈ init.toNodes, node.Own related) : init.Like related init := by
  cases init <;> simp only [ForInit.toNodes, Node.Own, Node.forall_labels, List.forall_mem_singleton] at all
  case absent => exact .absent
  case vars decl => exact .vars (decl.like_self all)
  case expr value loc => exact .expr all.1 (value.like_self all.2)

mutual
theorem Stmt.like_self (stmt : Stmt) (all : stmt.toNode.Own related) : stmt.Like related stmt := by
  cases stmt
  case vars decl => exact .vars (decl.like_self all)
  all_goals simp only [Stmt.toNode, Node.Own, Node.forall_labels, List.forall_mem_append, List.forall_mem_cons] at all
  case block stmts loc => exact .block all.1 (Stmt.likes_self stmts all.2)
  case ret value loc => exact .ret all.1 (Expr.optionLike_self value all.2)
  case ifThen test body loc => exact .ifThen all.1 (test.like_self all.2.1) (body.like_self all.2.2.1)
  case whileLoop test body loc => exact .whileLoop all.1 (test.like_self all.2.1) (body.like_self all.2.2.1)
  case doWhile body test loc => exact .doWhile all.1 (body.like_self all.2.1) (test.like_self all.2.2.1)
  case ifElse test yes no loc =>
    exact .ifElse all.1 (test.like_self all.2.1) (yes.like_self all.2.2.1) (no.like_self all.2.2.2.1)
  case forLoop init test post body loc =>
    obtain ⟨own, ⟨⟨inits, tests⟩, posts⟩, below, -⟩ := all
    exact .forLoop own (init.like_self inits) (Expr.optionLike_self test tests) (Expr.optionLike_self post posts)
      (body.like_self below)
  case breakLoop | continueLoop | empty =>
    constructor
    exact all.1
  case expr value loc => exact .expr all.1 (value.like_self all.2.1)

theorem Stmt.likes_self (stmts : List Stmt) (all : ∀ node ∈ Stmt.toNodes stmts, node.Own related) :
    List.Forall₂ (Stmt.Like related) stmts stmts := by
  cases stmts with
  | nil => exact .nil
  | cons first rest =>
    simp only [Stmt.toNodes, List.forall_mem_cons] at all
    exact .cons (first.like_self all.1) (Stmt.likes_self rest all.2)
end

theorem rel_self {like : α → α → Prop} {value : Option α} (own : ∀ item ∈ value, like item item) :
    Option.Rel like value value := by
  cases value with
  | none => exact .none
  | some item => exact .some (own item rfl)

theorem StructDecl.like_self (decl : StructDecl) (all : decl.toNode.Own related) : decl.Like related decl := by
  simp only [StructDecl.toNode, Node.Own, Node.forall_labels, List.forall_mem_map] at all
  refine ⟨all.1, rfl, rfl, rfl, rel_self fun fields found => List.forall₂_same.mpr fun field member => ?_⟩
  have own := all.2 field (by rwa [StructDecl.fieldList, found])
  simp only [Field.toNode, Node.forall_labels] at own
  exact ⟨own.1, rfl, field.dims.like_self own.2⟩

theorem FuncDecl.like_self (decl : FuncDecl) (all : decl.toNode.Own related) : decl.Like related decl := by
  simp only [FuncDecl.toNode, Node.Own, Node.forall_labels, List.forall_mem_append, List.forall_mem_map,
    Option.mem_toList] at all
  refine ⟨all.1, rfl, rfl, rfl, List.forall₂_same.mpr fun param member => ?_, rfl,
    rel_self fun body found => body.toStmt.like_self (all.2.2 body found)⟩
  have own := all.2.1 param member
  simp only [Param.toNode, Node.forall_labels] at own
  exact ⟨own.1, rfl, param.dims.like_self own.2⟩

theorem TypedefDecl.like_self (decl : TypedefDecl) (all : decl.toNode.Own related) : decl.Like related decl := by
  obtain ⟨target, name, dims, loc⟩ := decl
  cases target <;> simp only [TypedefDecl.toNode, Node.Own, Node.forall_labels, List.forall_mem_cons] at all
  case type type => exact .type all.1 (dims.like_self all.2)
  case body struct => exact .body all.1 (struct.like_self all.2.1) (dims.like_self all.2.2)

theorem EnumDecl.like_self (decl : EnumDecl) (all : decl.toNode.Own related) : decl.Like related decl := by
  simp only [EnumDecl.toNode, Node.Own, Node.forall_labels, List.forall_mem_flatMap] at all
  exact ⟨all.1, rfl, List.forall₂_same.mpr fun item member => ⟨rfl, Expr.optionLike_self _ (all.2 item member)⟩⟩

theorem Decl.like_self (decl : Decl) (all : decl.toNode.Own related) : decl.Like related decl := by
  cases decl with
  | struct decl => exact .struct (decl.like_self all)
  | function decl => exact .function (decl.like_self all)
  | vars decl => exact .vars (decl.like_self all)
  | typedef decl => exact .typedef (decl.like_self all)
  | enum decl => exact .enum (decl.like_self all)
  | inclusion target line loc => exact .inclusion (Node.forall_labels.mp all).1
  | directive line loc => exact .directive (Node.forall_labels.mp all).1

theorem Stmt.Like.isBlock {one other : Stmt} (like : one.Like related other) : one.isBlock = other.isBlock := by
  cases like <;> rfl

theorem Stmt.Like.isBranch {one other : Stmt} (like : one.Like related other) : one.isBranch = other.isBranch := by
  cases like <;> rfl

namespace Printer

/-- Two printers write the same for two types. -/
structure SameType (printer mate : Printer) (type type' : TypeExpr) : Prop where
  whole : printer.type type = mate.type type'
  base : printer.render (printer.subst.type type).base = mate.render (mate.subst.type type').base
  depth : (printer.subst.type type).pointerDepth = (mate.subst.type type').pointerDepth

/-- Two printers write the same for all that stands on two nodes themselves. -/
structure SameLabel (printer mate : Printer) (label label' : NodeLabel) : Prop where
  types : List.Forall₂ (printer.SameType mate) label.types label'.types
  callee : label.kind = .call → ∀ callee callee' : Expr, callee.calleeName = label.callee →
    callee'.calleeName = label'.callee → printer.genericCallee? callee label.types = mate.genericCallee? callee' label'.types

variable {printer mate : Printer}

theorem SameLabel.type {kind : NodeKind} {loc loc' : Span} {type type' : TypeExpr}
    (own : Own (printer.SameLabel mate) kind loc loc' [type] [type']) : printer.SameType mate type type' :=
  (List.forall₂_cons.mp own.types).1

mutual
theorem expr_like {one other : Expr} (like : one.Like (printer.SameLabel mate) other) :
    printer.expr one = mate.expr other := by
  cases like with
  | name own | literal own => rfl
  | binary own left right | index own left right => simp only [Printer.expr, expr_like left, expr_like right]
  | unary own inner | step own inner | member own inner | paren own inner => simp only [Printer.expr, expr_like inner]
  | conditional own test yes no => simp only [Printer.expr, expr_like test, expr_like yes, expr_like no]
  | call own callee args =>
    simp only [Printer.expr, own.callee rfl _ _ rfl rfl, expr_like callee, exprs_like args]
  | sizeofType own => simp only [Printer.expr, own.type.whole]
  | sizeofExpr own inner =>
    -- Whether the operand stands in parentheses is part of its form.
    have below := expr_like inner
    cases inner <;> simp only [Printer.expr] at below ⊢ <;> rw [below]
  | cast own inner => simp only [Printer.expr, own.type.whole, expr_like inner]
  | initList own elems => simp only [Printer.expr, exprs_like elems]

theorem exprs_like {one other : List Expr} (like : List.Forall₂ (Expr.Like (printer.SameLabel mate)) one other) :
    printer.exprs one = mate.exprs other := by
  cases like with
  | nil => rfl
  | cons first rest =>
    have later := exprs_like rest
    cases rest with
    | nil => exact expr_like first
    | cons next rest => simp only [Printer.exprs, expr_like first, later]
end

theorem optionalExpr_like (like : Expr.OptionLike (printer.SameLabel mate) one other) :
    printer.optionalExpr one = mate.optionalExpr other := by
  cases like with
  | none => rfl
  | some like => exact expr_like like

theorem map_like {β : Type} {like : α → α → Prop} {write write' : α → β} {one other : List α}
    (all : List.Forall₂ like one other) (each : ∀ {part part'}, like part part' → write part = write' part') :
    one.map write = other.map write' := by
  induction all with
  | nil => rfl
  | cons first rest ih => rw [List.map_cons, List.map_cons, each first, ih]

theorem dimensions_like {one other : Dimensions} (like : Dimensions.Like (printer.SameLabel mate) one other) :
    printer.dimensions one = mate.dimensions other := by
  unfold Printer.dimensions
  rw [List.flatMap_def, List.flatMap_def, map_like like fun size => by rw [optionalExpr_like size]]

theorem declared_like {type type' : TypeExpr} {one other : Dimensions} (same : printer.SameType mate type type')
    (name : Text) (like : Dimensions.Like (printer.SameLabel mate) one other) :
    printer.declared type name one = mate.declared type' name other := by
  rw [declared, declared, same.whole, dimensions_like like]

theorem initial_like (like : Expr.OptionLike (printer.SameLabel mate) one other) :
    printer.initial one = mate.initial other := by
  cases like with
  | none => rfl
  | some like => simp only [initial, expr_like like]

theorem sharedDeclarator_like {one other : Declarator} (like : one.Like (printer.SameLabel mate) other) :
    printer.sharedDeclarator one = mate.sharedDeclarator other := by
  rw [sharedDeclarator, sharedDeclarator, like.own.type.depth, like.name, dimensions_like like.dims, initial_like like.init]

theorem vars_like {one other : VarDecl} (like : one.Like (printer.SameLabel mate) other) :
    printer.vars one = mate.vars other := by
  obtain ⟨storage, vars, loc⟩ := one
  obtain ⟨storage', vars', loc'⟩ := other
  obtain ⟨own, same, all⟩ := like
  dsimp only at same all
  -- The base of the first variable is written for all, and each one's stars with its name.
  have shared := map_like all sharedDeclarator_like
  cases all with
  | nil => exact congrArg Storage.render same
  | cons first rest =>
    cases rest with
    | nil =>
      simp only [Printer.vars, same, first.name, declared_like first.own.type _ first.dims, initial_like first.init]
    | cons next rest => simp only [Printer.vars, same, first.own.type.base, shared]

theorem signature_like {one other : FuncDecl} (like : one.Like (printer.SameLabel mate) other) (name : Text) :
    printer.signature one name = mate.signature other name := by
  have param {part part' : Param} (like : part.Like (printer.SameLabel mate) part') :
      printer.declared part.type part.name part.dims = mate.declared part'.type part'.name part'.dims := by
    rw [like.name, declared_like like.own.type _ like.dims]
  unfold Printer.signature
  rw [map_like like.params param, like.storage, like.variadic, like.own.type.whole]

theorem fields_like {one other : List Field} (like : List.Forall₂ (Field.Like (printer.SameLabel mate)) one other) :
    printer.fields one = mate.fields other := by
  unfold Printer.fields
  rw [List.flatMap_def, List.flatMap_def,
    map_like like fun field => by rw [field.name, declared_like field.own.type _ field.dims]]

theorem enum_like {one other : EnumDecl} (like : one.Like (printer.SameLabel mate) other) :
    printer.enum one = mate.enum other := by
  have item {part part' : EnumItem} (like : part.Like (printer.SameLabel mate) part') :
      printer.enumItem part = mate.enumItem part' := by
    rw [enumItem, enumItem, like.name, initial_like like.value]
  have empty : one.items.isEmpty = other.items.isEmpty := by
    rw [Bool.eq_iff_iff, List.isEmpty_iff_length_eq_zero, List.isEmpty_iff_length_eq_zero, like.items.length_eq]
  unfold Printer.enum
  rw [map_like like.items item, like.name, empty]

theorem typedef_like {one other : TypedefDecl} (like : one.Like (printer.SameLabel mate) other) :
    printer.typedef one = mate.typedef other := by
  cases like with
  | type own dims => simp only [Printer.typedef, declared_like own.type _ dims]
  | body own struct dims =>
    simp only [Printer.typedef, StructDecl.keyword, struct.isUnion, struct.name, fields_like struct.fieldList,
      dimensions_like dims]

theorem forInit_like {one other : ForInit} (like : one.Like (printer.SameLabel mate) other) :
    printer.forInit one = mate.forInit other := by
  cases like with
  | absent => rfl
  | vars decl => exact vars_like decl
  | expr own value => exact expr_like value

theorem spaced_like (like : Expr.OptionLike (printer.SameLabel mate) one other) :
    printer.spaced one = mate.spaced other := by
  cases like with
  | none => rfl
  | some like => exact congrArg (Text.byte ' ' :: ·) (expr_like like)

mutual
theorem stmt_like (level : Nat) {one other : Stmt} (like : one.Like (printer.SameLabel mate) other) :
    printer.stmt level one = mate.stmt level other := by
  cases like with
  | block own stmts => simp only [Printer.stmt, stmts_like _ stmts]
  | ret own value => simp only [Printer.stmt, spaced_like value]
  | ifThen own test body | whileLoop own test body | doWhile own body test =>
    simp only [Printer.stmt, expr_like test, body.isBlock, stmt_like _ body]
  | ifElse own test yes no =>
    simp only [Printer.stmt, expr_like test, yes.isBlock, no.isBlock, no.isBranch, stmt_like _ yes, stmt_like _ no]
  | forLoop own init test post body =>
    simp only [Printer.stmt, forInit_like init, spaced_like test, spaced_like post, body.isBlock, stmt_like _ body]
  | breakLoop own | continueLoop own | empty own => rfl
  | expr own value => simp only [Printer.stmt, expr_like value]
  | vars decl => simp only [Printer.stmt, vars_like decl]

theorem stmts_like (level : Nat) {one other : List Stmt}
    (like : List.Forall₂ (Stmt.Like (printer.SameLabel mate)) one other) :
    printer.stmts level one = mate.stmts level other := by
  cases like with
  | nil => rfl
  | cons first rest => simp only [Printer.stmts, stmt_like _ first, stmts_like _ rest]
end

theorem function_like {one other : FuncDecl} {body body' : Block} (like : one.Like (printer.SameLabel mate) other)
    (name : Text) (bodies : body.Like (printer.SameLabel mate) body') :
    printer.function one name body = mate.function other name body' := by
  rw [function, function, signature_like like, stmt_like 0 bodies]

theorem struct_like {one other : StructDecl} (like : one.Like (printer.SameLabel mate) other) :
    printer.struct one = mate.struct other := by
  unfold Printer.struct StructDecl.keyword
  rw [like.name, like.isUnion]
  have fields := like.fields
  generalize one.fields = inner, other.fields = inner' at fields
  cases fields with
  | none => rfl
  | some fields => simp only [fields_like fields]

theorem declText_like {one other : Decl} (like : one.Like (printer.SameLabel mate) other) :
    Emitter.declText printer one = Emitter.declText mate other := by
  cases like with
  | struct decl => simp only [Emitter.declText, decl.generic, struct_like decl]
  | @function one other decl =>
    simp only [Emitter.declText, decl.generic, decl.name, signature_like decl]
    have bodies := decl.body
    generalize one.body = body, other.body = body' at bodies
    cases bodies with
    | none => rfl
    | some bodies => simp only [function_like decl _ bodies]
  | vars decl => simp only [Emitter.declText, vars_like decl]
  | typedef decl => exact typedef_like decl
  | enum decl => exact enum_like decl
  | inclusion own | directive own => rfl

end Printer

end GenericC
