import GenericC.Proofs.RelatedTrees
import GenericC.Proofs.SubstitutedTypes

/-! Declarations with a substitution put in. The printer and the search for uses read a generic declaration as it is
written and replace the type parameters wherever they meet a type. One could as well replace them in the declaration first:
the text, the reports and the uses are the same. -/

namespace GenericC

mutual
/-- An expression with the substitution put into every type that is written in it. -/
def Expr.specialize (subst : Subst) : Expr → Expr
  | .name called loc => .name called loc
  | .literal kind value loc => .literal kind value loc
  | .binary op left right loc => .binary op (left.specialize subst) (right.specialize subst) loc
  | .unary op operand loc => .unary op (operand.specialize subst) loc
  | .step op operand loc => .step op (operand.specialize subst) loc
  | .conditional test yes no loc =>
    .conditional (test.specialize subst) (yes.specialize subst) (no.specialize subst) loc
  | .call callee typeArgs args loc =>
    .call (callee.specialize subst) (subst.types typeArgs) (Expr.specializeAll subst args) loc
  | .member object field arrow loc => .member (object.specialize subst) field arrow loc
  | .index object position loc => .index (object.specialize subst) (position.specialize subst) loc
  | .sizeofType type loc => .sizeofType (subst.type type) loc
  | .sizeofExpr operand loc => .sizeofExpr (operand.specialize subst) loc
  | .cast type operand loc => .cast (subst.type type) (operand.specialize subst) loc
  | .paren inner loc => .paren (inner.specialize subst) loc
  | .initList elems loc => .initList (Expr.specializeAll subst elems) loc

def Expr.specializeAll (subst : Subst) : List Expr → List Expr
  | [] => []
  | first :: rest => first.specialize subst :: Expr.specializeAll subst rest
end

def Dimensions.specialize (subst : Subst) (dims : Dimensions) : Dimensions := dims.map (·.map (Expr.specialize subst))

def Declarator.specialize (subst : Subst) (declarator : Declarator) : Declarator :=
  { declarator with
    type := subst.type declarator.type
    dims := declarator.dims.specialize subst
    init := declarator.init.map (Expr.specialize subst) }

def VarDecl.specialize (subst : Subst) (decl : VarDecl) : VarDecl :=
  { decl with vars := decl.vars.map (Declarator.specialize subst) }

def ForInit.specialize (subst : Subst) : ForInit → ForInit
  | absent => absent
  | vars decl => vars (decl.specialize subst)
  | expr value loc => expr (value.specialize subst) loc

mutual
def Stmt.specialize (subst : Subst) : Stmt → Stmt
  | .block stmts loc => .block (Stmt.specializeAll subst stmts) loc
  | .ret value loc => .ret (value.map (Expr.specialize subst)) loc
  | .ifThen test yes loc => .ifThen (test.specialize subst) (yes.specialize subst) loc
  | .ifElse test yes no loc => .ifElse (test.specialize subst) (yes.specialize subst) (no.specialize subst) loc
  | .whileLoop test body loc => .whileLoop (test.specialize subst) (body.specialize subst) loc
  | .doWhile body test loc => .doWhile (body.specialize subst) (test.specialize subst) loc
  | .forLoop init test post body loc =>
    .forLoop (init.specialize subst) (test.map (Expr.specialize subst)) (post.map (Expr.specialize subst))
      (body.specialize subst) loc
  | .breakLoop loc => .breakLoop loc
  | .continueLoop loc => .continueLoop loc
  | .empty loc => .empty loc
  | .expr value loc => .expr (value.specialize subst) loc
  | .vars decl => .vars (decl.specialize subst)

def Stmt.specializeAll (subst : Subst) : List Stmt → List Stmt
  | [] => []
  | first :: rest => first.specialize subst :: Stmt.specializeAll subst rest
end

def Block.specialize (subst : Subst) (block : Block) : Block :=
  { block with stmts := Stmt.specializeAll subst block.stmts }

def Field.specialize (subst : Subst) (field : Field) : Field :=
  { field with type := subst.type field.type, dims := field.dims.specialize subst }

def Param.specialize (subst : Subst) (param : Param) : Param :=
  { param with type := subst.type param.type, dims := param.dims.specialize subst }

def StructDecl.specialize (subst : Subst) (decl : StructDecl) : StructDecl :=
  { decl with fields := decl.fields.map (·.map (Field.specialize subst)) }

def FuncDecl.specialize (subst : Subst) (decl : FuncDecl) : FuncDecl :=
  { decl with
    result := subst.type decl.result
    params := decl.params.map (Param.specialize subst)
    body := decl.body.map (Block.specialize subst) }

def NodeLabel.specialize (subst : Subst) (label : NodeLabel) : NodeLabel := { label with types := subst.types label.types }

theorem NodeLabel.specialize_kind (subst : Subst) (label : NodeLabel) : (label.specialize subst).kind = label.kind := rfl

theorem NodeLabel.specialize_callee (subst : Subst) (label : NodeLabel) :
    (label.specialize subst).callee = label.callee := rfl

theorem NodeLabel.specialize_types (subst : Subst) (label : NodeLabel) :
    (label.specialize subst).types = subst.types label.types := rfl

variable (subst : Subst)

theorem Expr.calleeName_specialize (expr : Expr) : (expr.specialize subst).calleeName = expr.calleeName := by
  cases expr <;> rfl

variable {subst} {related : NodeLabel → NodeLabel → Prop}

mutual
theorem Expr.like_specialize (all : ∀ label, related label (label.specialize subst)) (expr : Expr) :
    expr.Like related (expr.specialize subst) := by
  cases expr with
  | name called loc | literal kind value loc | sizeofType type loc =>
    constructor
    exact all _
  | unary op a loc | step op a loc | member a field arrow loc | sizeofExpr a loc | cast type a loc | paren a loc =>
    constructor
    exacts [all _, a.like_specialize all]
  | binary op a b loc | index a b loc =>
    constructor
    exacts [all _, a.like_specialize all, b.like_specialize all]
  | conditional test yes no loc =>
    exact .conditional (all _) (test.like_specialize all) (yes.like_specialize all) (no.like_specialize all)
  | call callee typeArgs args loc =>
    exact .call (by rw [callee.calleeName_specialize]; exact all _) (callee.like_specialize all)
      (Expr.likes_specialize all args)
  | initList elems loc => exact .initList (all _) (Expr.likes_specialize all elems)

theorem Expr.likes_specialize (all : ∀ label, related label (label.specialize subst)) (exprs : List Expr) :
    List.Forall₂ (Expr.Like related) exprs (Expr.specializeAll subst exprs) := by
  cases exprs with
  | nil => exact .nil
  | cons first rest => exact .cons (first.like_specialize all) (Expr.likes_specialize all rest)
end

variable (all : ∀ label, related label (label.specialize subst))
include all

theorem Expr.optionLike_specialize (value : Option Expr) :
    Expr.OptionLike related value (value.map (Expr.specialize subst)) :=
  rel_map_right (Expr.like_specialize all) value

theorem Dimensions.like_specialize (dims : Dimensions) : Dimensions.Like related dims (dims.specialize subst) :=
  forall₂_map_right (Expr.optionLike_specialize all) dims

theorem VarDecl.like_specialize (decl : VarDecl) : decl.Like related (decl.specialize subst) :=
  ⟨all _, rfl, forall₂_map_right (fun declarator =>
    ⟨all _, rfl, declarator.dims.like_specialize all, Expr.optionLike_specialize all declarator.init⟩) decl.vars⟩

theorem ForInit.like_specialize (init : ForInit) : init.Like related (init.specialize subst) := by
  cases init with
  | absent => exact .absent
  | vars decl => exact .vars (decl.like_specialize all)
  | expr value loc => exact .expr (all _) (value.like_specialize all)

omit all in
mutual
theorem Stmt.like_specialize (all : ∀ label, related label (label.specialize subst)) (stmt : Stmt) :
    stmt.Like related (stmt.specialize subst) := by
  cases stmt with
  | block stmts loc => exact .block (all _) (Stmt.likes_specialize all stmts)
  | ret value loc => exact .ret (all _) (Expr.optionLike_specialize all value)
  | ifThen test body loc | whileLoop test body loc =>
    constructor
    exacts [all _, test.like_specialize all, body.like_specialize all]
  | ifElse test yes no loc =>
    exact .ifElse (all _) (test.like_specialize all) (yes.like_specialize all) (no.like_specialize all)
  | doWhile body test loc => exact .doWhile (all _) (body.like_specialize all) (test.like_specialize all)
  | forLoop init test post body loc =>
    exact .forLoop (all _) (init.like_specialize all) (Expr.optionLike_specialize all test)
      (Expr.optionLike_specialize all post) (body.like_specialize all)
  | breakLoop loc | continueLoop loc | empty loc =>
    constructor
    exact all _
  | expr value loc => exact .expr (all _) (value.like_specialize all)
  | vars decl => exact .vars (decl.like_specialize all)

theorem Stmt.likes_specialize (all : ∀ label, related label (label.specialize subst)) (stmts : List Stmt) :
    List.Forall₂ (Stmt.Like related) stmts (Stmt.specializeAll subst stmts) := by
  cases stmts with
  | nil => exact .nil
  | cons first rest => exact .cons (first.like_specialize all) (Stmt.likes_specialize all rest)
end

theorem StructDecl.like_specialize (decl : StructDecl) : decl.Like related (decl.specialize subst) :=
  ⟨all _, rfl, rfl, rfl, rel_map_right (forall₂_map_right fun field =>
    ⟨all _, rfl, field.dims.like_specialize all⟩) decl.fields⟩

theorem FuncDecl.like_specialize (decl : FuncDecl) : decl.Like related (decl.specialize subst) :=
  ⟨all _, rfl, rfl, rfl, forall₂_map_right (fun param => ⟨all _, rfl, param.dims.like_specialize all⟩) decl.params, rfl,
    rel_map_right (fun body => body.toStmt.like_specialize all) decl.body⟩

omit all
variable (subst)

/-- A tree has the form of another, with the substitution put into its labels. -/
abbrev Node.Specializes : Node → Node → Prop := Node.Like fun label other => label.specialize subst = other

@[simp] theorem Subst.type_empty (type : TypeExpr) : ({} : Subst).type type = type := by
  induction type using TypeExpr.byParts with
  | absent | named name loc => rfl
  | applied name args loc ih =>
    have each : ({} : Subst).types args = args := (List.map_congr_left ih).trans args.map_id
    rw [Subst.type_applied, each]
    rfl
  | pointer elem loc ih => rw [Subst.type_pointer, ih]

@[simp] theorem Subst.types_empty (types : List TypeExpr) : ({} : Subst).types types = types :=
  (List.map_congr_left fun type _ => Subst.type_empty type).trans types.map_id

theorem Subst.isEmpty_types (types : List TypeExpr) : (subst.types types).isEmpty = types.isEmpty := by
  cases types <;> rfl

def Use.asked (use : Use) : InstKind × Text × List TypeExpr := (use.kind, use.name, use.args)

theorem TypeExpr.asked_uses (index : Index) (site other : Span) (type : TypeExpr) :
    (type.uses index site).map Use.asked = (type.uses index other).map Use.asked := by
  induction type using TypeExpr.byParts with
  | absent | named name loc => rfl
  | applied name args loc ih =>
    rw [uses, uses, usesOfAll_eq, usesOfAll_eq, List.map_append, List.map_append, List.map_flatMap, List.map_flatMap,
      List.flatMap_congr ih]
    split <;> rfl
  | pointer elem loc ih => exact ih

theorem NodeLabel.asked_specialize (index : Index) (label : NodeLabel) :
    ((label.specialize subst).uses index {}).map Use.asked = (label.uses index subst).map Use.asked := by
  have inTypes : ((subst.types label.types).flatMap fun type =>
      (({} : Subst).type type).uses index ((label.specialize subst).siteOf type)).map Use.asked =
      (label.types.flatMap fun type => (subst.type type).uses index (label.siteOf type)).map Use.asked := by
    rw [Subst.types, List.flatMap_map, List.map_flatMap, List.map_flatMap]
    refine List.flatMap_congr fun type _ => ?_
    rw [Subst.type_empty]
    exact TypeExpr.asked_uses index _ _ _
  have call : (label.specialize subst).isGenericCall = label.isGenericCall := by
    rw [NodeLabel.isGenericCall, NodeLabel.isGenericCall, specialize_kind, specialize_types, Subst.isEmpty_types]
  unfold NodeLabel.uses
  dsimp only
  rw [call, specialize_callee, specialize_types]
  by_cases generic : (label.isGenericCall && (index.func? label.callee).isSome) = true
  · rw [if_pos generic, if_pos generic, List.map_append, List.map_append, inTypes, Subst.types_empty]
    rfl
  · rw [if_neg generic, if_neg generic]
    exact inTypes

theorem Node.asked_specialize (index : Index) {tree other : Node} (put : tree.Specializes subst other) :
    (other.uses index {}).map Use.asked = (tree.uses index subst).map Use.asked := by
  unfold Node.uses
  rw [← Node.Like.labels_eq put, List.flatMap_map, List.map_flatMap, List.map_flatMap]
  exact List.flatMap_congr fun label _ => NodeLabel.asked_specialize subst index label

namespace Printer

variable (printer : Printer)

theorem writtenTypes_specialize (shared : Bool) (labels : List NodeLabel) :
    writtenTypes shared (labels.map (·.specialize subst)) = subst.types (writtenTypes shared labels) := by
  induction labels generalizing shared with
  | nil => rfl
  | cons label rest ih =>
    rw [List.map_cons, writtenTypes, writtenTypes, NodeLabel.specialize_kind, NodeLabel.specialize_types, ih, ih]
    by_cases declarator : label.kind = .declarator
    · cases shared <;> simp [declarator, Subst.types]
    · by_cases call : label.kind = .call <;> simp [declarator, call, Subst.types]

theorem problems_specialize {tree other : Node} (put : tree.Specializes subst other) :
    (printer.withSubst {}).problems other = (printer.withSubst subst).problems tree := by
  have clear (type : TypeExpr) :
      (printer.withSubst {}).renderProblem? type = (printer.withSubst subst).renderProblem? type := by
    induction type using TypeExpr.byParts with
    | pointer elem loc ih => exact ih
    | _ => rfl
  unfold problems
  rw [← Node.Like.labels_eq put, writtenTypes_specialize, Subst.types, List.filterMap_map]
  refine List.filterMap_congr fun type _ => ?_
  exact (congrArg _ (Subst.type_empty _)).trans (clear _)

theorem render_withSubst (other : Subst) (type : TypeExpr) :
    (printer.withSubst subst).render type = (printer.withSubst other).render type := by
  induction type using TypeExpr.byParts with
  | pointer elem loc ih => rw [render, render, ih]
  | _ => rfl

theorem sameLabel_specialize (label : NodeLabel) :
    (printer.withSubst subst).SameLabel (printer.withSubst {}) label (label.specialize subst) := by
  refine ⟨forall₂_map_right (fun type => ?_) label.types, fun _ callee callee' name name' => ?_⟩
  · have whole : (printer.withSubst {}).subst.type (subst.type type) = subst.type type := Subst.type_empty _
    constructor
    · rw [Printer.type, Printer.type, whole]
      exact printer.render_withSubst subst {} _
    · rw [whole]
      exact printer.render_withSubst subst {} _
    · rw [whole]
      rfl
  · unfold genericCallee?
    rw [name, name', NodeLabel.specialize_callee, NodeLabel.specialize_types, Subst.isEmpty_types]
    simp only [withSubst, Subst.types_empty]
    rfl

end Printer

/-- Printing a declaration under a substitution and looking for uses in it come to the same as printing the declaration with
the substitution put into every type, and looking for uses there, under no substitution: the text, the reports and what is
asked for, in order. -/
theorem printed_as_specialized (printer : Printer) (subst : Subst) :
    (∀ decl : StructDecl,
      (printer.withSubst subst).fields decl.fieldList = (printer.withSubst {}).fields (decl.specialize subst).fieldList ∧
      (printer.withSubst subst).problems decl.toNode = (printer.withSubst {}).problems (decl.specialize subst).toNode ∧
      ∀ index, (decl.toNode.uses index subst).map Use.asked =
        ((decl.specialize subst).toNode.uses index {}).map Use.asked) ∧
    ∀ decl : FuncDecl,
      (∀ name, (printer.withSubst subst).signature decl name =
        (printer.withSubst {}).signature (decl.specialize subst) name) ∧
      (∀ level, decl.body.map (fun body => (printer.withSubst subst).stmt level body.toStmt) =
        (decl.specialize subst).body.map fun body => (printer.withSubst {}).stmt level body.toStmt) ∧
      (printer.withSubst subst).problems decl.toNode = (printer.withSubst {}).problems (decl.specialize subst).toNode ∧
      ∀ index, (decl.toNode.uses index subst).map Use.asked =
        ((decl.specialize subst).toNode.uses index {}).map Use.asked := by
  have same := printer.sameLabel_specialize subst
  refine ⟨fun decl => ?_, fun decl => ?_⟩
  · have put := (decl.like_specialize fun label => (rfl : label.specialize subst = _)).toNode
    exact ⟨Printer.fields_like (decl.like_specialize same).fieldList, (printer.problems_specialize subst put).symm,
      fun index => (Node.asked_specialize subst index put).symm⟩
  · have put := (decl.like_specialize fun label => (rfl : label.specialize subst = _)).toNode
    refine ⟨Printer.signature_like (decl.like_specialize same), fun level => ?_,
      (printer.problems_specialize subst put).symm, fun index => (Node.asked_specialize subst index put).symm⟩
    show _ = (decl.body.map (Block.specialize subst)).map _
    rw [Option.map_map]
    congr 1
    funext body
    exact Printer.stmt_like level (body.toStmt.like_specialize same)

end GenericC
