import GenericC.Generics.Expansion
import GenericC.Proofs.BareTrees
import GenericC.Proofs.RelatedTrees
import GenericC.Proofs.SubstitutedTypes

/-! The instantiations of a program do not depend on where its parts are written. Places are recorded with the uses of an
instantiation and shown in reports, but which instantiations there are, in which order and under which names, is
decided without them. -/

namespace GenericC

open TypeExpr (bareAll bareAll_eq_map)

theorem StructDecl.isGeneric_bare (decl : StructDecl) : decl.bare.isGeneric = decl.isGeneric := by
  simp only [StructDecl.isGeneric, StructDecl.bare, List.isEmpty_map]

theorem StructDecl.fieldList_bare (decl : StructDecl) : decl.bare.fieldList = decl.fieldList.map Field.bare := by
  unfold StructDecl.fieldList StructDecl.bare
  cases decl.fields <;> rfl

theorem FuncDecl.isGeneric_bare (decl : FuncDecl) : decl.bare.isGeneric = decl.isGeneric := by
  simp only [FuncDecl.isGeneric, FuncDecl.bare, List.isEmpty_map]

theorem Decl.isGeneric_bare (decl : Decl) : decl.bare.isGeneric = decl.isGeneric := by
  cases decl with
  | struct decl | function decl => exact decl.isGeneric_bare
  | _ => rfl

theorem Decl.name_bare (decl : Decl) : decl.bare.name = decl.name := by
  cases decl with
  | vars decl =>
    obtain ⟨storage, vars, loc⟩ := decl
    cases vars <;> rfl
  | _ => rfl

def Index.bare (index : Index) : Index where
  structs := index.structs.map StructDecl.bare
  funcs := index.funcs.map FuncDecl.bare
  plain := index.plain

namespace Index

theorem ofProgram_bare (program : Program) : ofProgram program.bare = (ofProgram program).bare := by
  unfold ofProgram bare Program.bare
  rw [Index.mk.injEq]
  refine ⟨?_, ?_, ?_⟩
  · rw [List.filterMap_map, List.map_filterMap]
    congr 1
    funext decl
    cases decl with
    | struct decl =>
      simp only [Function.comp_apply, Decl.bare, decl.isGeneric_bare]
      split <;> rfl
    | _ => rfl
  · rw [List.filterMap_map, List.map_filterMap]
    congr 1
    funext decl
    cases decl with
    | function decl =>
      simp only [Function.comp_apply, Decl.bare, decl.isGeneric_bare]
      split <;> rfl
    | _ => rfl
  · rw [List.flatMap_map]
    congr 1
    funext decl
    cases decl with
    | struct decl =>
      simp only [Decl.bare, decl.isGeneric_bare]
      rfl
    | typedef decl =>
      obtain ⟨target, name, dims, loc⟩ := decl
      cases target <;> rfl
    | _ => rfl

variable (index : Index)

theorem struct?_bare (name : Text) : index.bare.struct? name = (index.struct? name).map StructDecl.bare := by
  have defined (decl : StructDecl) : decl.bare.fields.isSome = decl.fields.isSome := Option.isSome_map
  simp only [struct?, bare, List.filter_map, List.find?_map, List.getLast?_map, Option.map_or]
  simp only [Function.comp_def, defined]
  rfl

theorem func?_bare (name : Text) : index.bare.func? name = (index.func? name).map FuncDecl.bare := by
  have defined (decl : FuncDecl) : decl.bare.body.isSome = decl.body.isSome := Option.isSome_map
  simp only [func?, bare, List.filter_map, List.find?_map, List.getLast?_map, Option.map_or]
  simp only [Function.comp_def, defined]
  rfl

end Index

def Subst.bare (subst : Subst) : Subst := ⟨subst.bindings.map fun binding => (binding.1, binding.2.bare)⟩

namespace Subst

variable (subst : Subst)

theorem find?_bare (name : Text) : subst.bare.find? name = (subst.find? name).map TypeExpr.bare := by
  exact lookup_map TypeExpr.bare subst.bindings name

theorem type_bare (type : TypeExpr) : subst.bare.type type.bare = (subst.type type).bare := by
  have bound (name : Text) (type : TypeExpr) :
      (subst.bare.find? name).getD type.bare = ((subst.find? name).getD type).bare := by
    rw [find?_bare]
    cases subst.find? name <;> rfl
  induction type using TypeExpr.byParts with
  | absent => rfl
  | named name loc =>
    rw [TypeExpr.bare, type_named, type_named]
    exact bound name (.named name loc)
  | applied name args loc ih =>
    have parts : subst.bare.types (bareAll args) = bareAll (subst.types args) := by
      rw [bareAll_eq_map, bareAll_eq_map, types, types, List.map_map, List.map_map]
      exact List.map_congr_left ih
    rw [TypeExpr.bare, type_applied, type_applied, parts]
    exact bound name (.applied name (subst.types args) loc)
  | pointer elem loc ih => rw [TypeExpr.bare, type_pointer, type_pointer, TypeExpr.bare, ih]

theorem types_bare (types : List TypeExpr) :
    subst.bare.types (bareAll types) = bareAll (subst.types types) := by
  rw [bareAll_eq_map, bareAll_eq_map, Subst.types, Subst.types, List.map_map, List.map_map]
  exact List.map_congr_left fun type _ => subst.type_bare type

theorem ofParams_bare (params : List TypeParam) (args : List TypeExpr) :
    ofParams (params.map TypeParam.bare) (bareAll args) = (ofParams params args).bare := by
  unfold ofParams bare
  rw [bareAll_eq_map, List.map_map, List.zip_map_right]
  rfl

theorem arityError?_bare (params : List TypeParam) (args : List TypeExpr) :
    arityError? (params.map TypeParam.bare) (bareAll args) = arityError? params args := by
  simp only [arityError?, bareAll_eq_map, List.length_map]

end Subst

def NodeLabel.bare (label : NodeLabel) : NodeLabel where
  kind := label.kind
  span := Span.nowhere
  types := TypeExpr.bareAll label.types
  callee := label.callee

theorem Expr.calleeName_bare (callee : Expr) : callee.bare.calleeName = callee.calleeName := by
  cases callee <;> rfl

section
variable {related : NodeLabel → NodeLabel → Prop}

mutual
theorem Expr.like_bare (all : ∀ label, related label label.bare) (expr : Expr) : expr.Like related expr.bare := by
  cases expr with
  | name called loc | literal kind value loc | sizeofType type loc =>
    constructor
    exact all _
  | unary op a loc | step op a loc | member a field arrow loc | sizeofExpr a loc | cast type a loc | paren a loc =>
    constructor
    exacts [all _, a.like_bare all]
  | binary op a b loc | index a b loc =>
    constructor
    exacts [all _, a.like_bare all, b.like_bare all]
  | conditional test yes no loc => exact .conditional (all _) (test.like_bare all) (yes.like_bare all) (no.like_bare all)
  | call callee typeArgs args loc =>
    exact .call (by rw [callee.calleeName_bare]; exact all _) (callee.like_bare all) (Expr.likes_bare all args)
  | initList elems loc => exact .initList (all _) (Expr.likes_bare all elems)

theorem Expr.likes_bare (all : ∀ label, related label label.bare) (exprs : List Expr) :
    List.Forall₂ (Expr.Like related) exprs (Expr.bareAll exprs) := by
  cases exprs with
  | nil => exact .nil
  | cons first rest => exact .cons (first.like_bare all) (Expr.likes_bare all rest)
end

variable (all : ∀ label, related label label.bare)
include all

theorem Expr.optionLike_bare (value : Option Expr) : Expr.OptionLike related value (value.map Expr.bare) :=
  rel_map_right (Expr.like_bare all) value

theorem Dimensions.like_bare (dims : Dimensions) : Dimensions.Like related dims dims.bare :=
  forall₂_map_right (Expr.optionLike_bare all) dims

theorem VarDecl.like_bare (decl : VarDecl) : decl.Like related decl.bare :=
  ⟨all _, rfl, forall₂_map_right (fun declarator =>
    ⟨all _, rfl, declarator.dims.like_bare all, Expr.optionLike_bare all declarator.init⟩) decl.vars⟩

theorem ForInit.like_bare (init : ForInit) : init.Like related init.bare := by
  cases init with
  | absent => exact .absent
  | vars decl => exact .vars (decl.like_bare all)
  | expr value loc => exact .expr (all _) (value.like_bare all)

omit all in
mutual
theorem Stmt.like_bare (all : ∀ label, related label label.bare) (stmt : Stmt) : stmt.Like related stmt.bare := by
  cases stmt with
  | block stmts loc => exact .block (all _) (Stmt.likes_bare all stmts)
  | ret value loc => exact .ret (all _) (Expr.optionLike_bare all value)
  | ifThen test body loc | whileLoop test body loc =>
    constructor
    exacts [all _, test.like_bare all, body.like_bare all]
  | ifElse test yes no loc => exact .ifElse (all _) (test.like_bare all) (yes.like_bare all) (no.like_bare all)
  | doWhile body test loc => exact .doWhile (all _) (body.like_bare all) (test.like_bare all)
  | forLoop init test post body loc =>
    exact .forLoop (all _) (init.like_bare all) (Expr.optionLike_bare all test) (Expr.optionLike_bare all post)
      (body.like_bare all)
  | breakLoop loc | continueLoop loc | empty loc =>
    constructor
    exact all _
  | expr value loc => exact .expr (all _) (value.like_bare all)
  | vars decl => exact .vars (decl.like_bare all)

theorem Stmt.likes_bare (all : ∀ label, related label label.bare) (stmts : List Stmt) :
    List.Forall₂ (Stmt.Like related) stmts (Stmt.bareAll stmts) := by
  cases stmts with
  | nil => exact .nil
  | cons first rest => exact .cons (first.like_bare all) (Stmt.likes_bare all rest)
end

theorem Field.likes_bare (fields : List Field) : List.Forall₂ (Field.Like related) fields (fields.map Field.bare) :=
  forall₂_map_right (fun field => ⟨all _, rfl, field.dims.like_bare all⟩) fields

theorem StructDecl.like_bare (decl : StructDecl) : decl.Like related decl.bare :=
  ⟨all _, rfl, rfl, decl.isGeneric_bare.symm, rel_map_right (Field.likes_bare all) decl.fields⟩

theorem Block.like_bare (block : Block) : block.Like related block.bare := by
  rw [Block.Like, block.toStmt_bare]
  exact block.toStmt.like_bare all

theorem FuncDecl.like_bare (decl : FuncDecl) : decl.Like related decl.bare :=
  ⟨all _, rfl, rfl, decl.isGeneric_bare.symm,
    forall₂_map_right (fun param => ⟨all _, rfl, param.dims.like_bare all⟩) decl.params, rfl,
    rel_map_right (Block.like_bare all) decl.body⟩

theorem Decl.like_bare (decl : Decl) : decl.Like related decl.bare := by
  cases decl with
  | struct decl => exact .struct (decl.like_bare all)
  | function decl => exact .function (decl.like_bare all)
  | vars decl => exact .vars (decl.like_bare all)
  | typedef decl =>
    obtain ⟨target, name, dims, loc⟩ := decl
    cases target with
    | type type => exact .typedef (.type (all _) (dims.like_bare all))
    | body struct => exact .typedef (.body (all _) (struct.like_bare all) (dims.like_bare all))
  | enum decl =>
    exact .enum ⟨all _, rfl, forall₂_map_right (fun item => ⟨rfl, Expr.optionLike_bare all item.value⟩) decl.items⟩
  | inclusion target line loc => exact .inclusion (all _)
  | directive line loc => exact .directive (all _)

end

/-- A tree has the form of another, with labels that lack their places. -/
abbrev Node.Bares : Node → Node → Prop := Node.Like fun label other => label.bare = other

def Use.bare (use : Use) : Use where
  kind := use.kind
  name := use.name
  args := TypeExpr.bareAll use.args
  site := Span.nowhere

variable (index : Index)

mutual
theorem TypeExpr.uses_bare (site : Span) (type : TypeExpr) :
    type.bare.uses index.bare Span.nowhere = (type.uses index site).map Use.bare := by
  cases type with
  | absent | named name loc => rfl
  | pointer elem loc => exact elem.uses_bare site
  | applied name args loc =>
    rw [TypeExpr.bare, TypeExpr.uses, TypeExpr.uses, TypeExpr.usesOfAll_bare site args, List.map_append, index.struct?_bare,
      Option.isSome_map]
    split <;> rfl

theorem TypeExpr.usesOfAll_bare (site : Span) (types : List TypeExpr) :
    TypeExpr.usesOfAll index.bare Span.nowhere (bareAll types) = (TypeExpr.usesOfAll index site types).map Use.bare := by
  cases types with
  | nil => rfl
  | cons first rest =>
    rw [bareAll, TypeExpr.usesOfAll, TypeExpr.usesOfAll, List.map_append, first.uses_bare site,
      TypeExpr.usesOfAll_bare site rest]
end

theorem TypeExpr.span_bare (type : TypeExpr) : type.bare.span = Span.nowhere := by
  cases type <;> rfl

theorem NodeLabel.uses_bare (subst : Subst) (label : NodeLabel) :
    label.bare.uses index.bare subst.bare = (label.uses index subst).map Use.bare := by
  have site (type : TypeExpr) : label.bare.siteOf type.bare = Span.nowhere := by
    rw [NodeLabel.siteOf, if_pos type.span_bare]
    rfl
  have inTypes : label.bare.types.flatMap (fun type => (subst.bare.type type).uses index.bare (label.bare.siteOf type)) =
      (label.types.flatMap fun type => (subst.type type).uses index (label.siteOf type)).map Use.bare := by
    show (bareAll label.types).flatMap _ = _
    rw [bareAll_eq_map, List.flatMap_map, List.map_flatMap]
    congr 1
    funext type
    rw [site, subst.type_bare, TypeExpr.uses_bare]
  have called : label.bare.isGenericCall = label.isGenericCall := by
    simp only [NodeLabel.isGenericCall, NodeLabel.bare, bareAll_eq_map, List.isEmpty_map]
  unfold NodeLabel.uses
  dsimp only
  rw [inTypes, called, show label.bare.callee = label.callee from rfl, index.func?_bare, Option.isSome_map]
  split
  · rw [List.map_append]
    show _ ++ [Use.mk .func label.callee (subst.bare.types (bareAll label.types)) Span.nowhere] = _
    rw [subst.types_bare]
    rfl
  · rfl

theorem Node.uses_bare (subst : Subst) {tree other : Node} (bares : tree.Bares other) :
    other.uses index.bare subst.bare = (tree.uses index subst).map Use.bare := by
  unfold Node.uses
  rw [← Node.Like.labels_eq bares, List.flatMap_map, List.map_flatMap]
  congr 1
  funext label
  exact label.uses_bare index subst

def Instantiation.bare (inst : Instantiation) : Instantiation :=
  { inst with typeArgs := TypeExpr.bareAll inst.typeArgs, useSites := [] }

theorem Instantiation.addSite_bare (inst : Instantiation) (site : UseSite) : (inst.addSite site).bare = inst.bare := by
  unfold Instantiation.addSite
  split <;> rfl

def Registry.bare (registry : Registry) : Registry := { registry with entries := registry.entries.map Instantiation.bare }

namespace Registry

variable (registry : Registry)

theorem findKey?_bare (key : InstKey) : registry.bare.findKey? key = (registry.findKey? key).map Instantiation.bare := by
  unfold findKey? bare
  dsimp only
  cases registry.byKey.lookup key with
  | none => rfl
  | some place => exact List.getElem?_map

theorem findMangled?_bare (mangled : Text) :
    registry.bare.findMangled? mangled = (registry.findMangled? mangled).map Instantiation.bare := by
  unfold findMangled? bare
  dsimp only
  cases registry.byMangled.lookup mangled with
  | none => rfl
  | some place => exact List.getElem?_map

theorem find?_bare (name : Text) (args : List TypeExpr) :
    registry.bare.find? name (bareAll args) = (registry.find? name args).map Instantiation.bare := by
  unfold find? keyOf
  rw [TypeExpr.listKey_bareAll]
  exact registry.findKey?_bare _

theorem register_bare (name : Text) (args : List TypeExpr) (site : UseSite) (origin : Origin) :
    (registry.bare.register name (bareAll args) ⟨Span.nowhere, site.caller⟩ origin).1 =
      (registry.register name args site origin).1.bare := by
  have nowhere (inst : Instantiation) : inst.addSite ⟨Span.nowhere, site.caller⟩ = inst := if_pos rfl
  have key : registry.bare.keyOf name (bareAll args) = registry.keyOf name args := by
    unfold keyOf
    rw [TypeExpr.listKey_bareAll]
    rfl
  unfold register
  simp only [key, TypeExpr.mangle_bareAll, findKey?_bare, findMangled?_bare, nowhere]
  cases registry.findKey? (registry.keyOf name args) with
  | some inst => simp only [Option.map_some, bare, List.map_set, Instantiation.addSite_bare]
  | none =>
    cases registry.findMangled? (mangle name args) with
    | some owner => rfl
    | none =>
      simp only [Option.map_none, bare, size, List.map_append, List.map_cons, List.map_nil, List.length_map,
        Instantiation.addSite_bare]
      rfl

end Registry

namespace Instantiations

def bare (insts : Instantiations) : Instantiations where
  structs := insts.structs.bare
  funcs := insts.funcs.bare

variable (insts : Instantiations)

theorem registry_bare (kind : InstKind) : insts.bare.registry kind = (insts.registry kind).bare := by
  cases kind <;> rfl

theorem setRegistry_bare (kind : InstKind) (registry : Registry) :
    insts.bare.setRegistry kind registry.bare = (insts.setRegistry kind registry).bare := by
  cases kind <;> rfl

theorem register_bare (kind : InstKind) (name : Text) (args : List TypeExpr) (site : UseSite) (origin : Origin) :
    (insts.bare.register kind name (bareAll args) ⟨Span.nowhere, site.caller⟩ origin).1 =
      (insts.register kind name args site origin).1.bare := by
  -- How collisions are reported is kept apart from the registries.
  have plain (insts : Instantiations) (args : List TypeExpr) (site : UseSite) :
      (insts.register kind name args site origin).1.bare =
        (insts.setRegistry kind ((insts.registry kind).register name args site origin).1).bare := by
    unfold register
    dsimp only
    split <;> rfl
  have every (args : List TypeExpr) (site : UseSite) :
      (insts.bare.register kind name args site origin).1 =
        insts.bare.setRegistry kind ((insts.bare.registry kind).register name args site origin).1 := by
    unfold register
    dsimp only
    split
    · cases kind <;> rfl
    · rfl
  rw [every, plain, registry_bare, Registry.register_bare, setRegistry_bare]

end Instantiations

theorem Index.paramsOf_bare (kind : InstKind) (name : Text) :
    index.bare.paramsOf kind name = (index.paramsOf kind name).map TypeParam.bare := by
  cases kind with
  | struct =>
    simp only [Index.paramsOf, index.struct?_bare]
    cases index.struct? name <;> rfl
  | func =>
    simp only [Index.paramsOf, index.func?_bare]
    cases index.func? name <;> rfl

theorem Index.specialized?_bare (inst : Instantiation) :
    Option.Rel (fun found other => found.1.Bares other.1 ∧ found.2.bare = other.2) (index.specialized? inst)
      (index.bare.specialized? inst.bare) := by
  have put {node other : Node} (bares : node.Bares other) (params : List TypeParam) :
      Option.Rel (fun found other => found.1.Bares other.1 ∧ found.2.bare = other.2)
        (if params.length = inst.typeArgs.length then some (node, Subst.ofParams params inst.typeArgs) else none)
        (if (params.map TypeParam.bare).length = inst.bare.typeArgs.length then
          some (other, Subst.ofParams (params.map TypeParam.bare) inst.bare.typeArgs) else none) := by
    rw [show inst.bare.typeArgs = bareAll inst.typeArgs from rfl, Subst.ofParams_bare, bareAll_eq_map,
      List.length_map, List.length_map]
    split
    · exact .some ⟨bares, rfl⟩
    · exact .none
  unfold Index.specialized?
  dsimp only
  rw [show inst.bare.kind = inst.kind from rfl, show inst.bare.genericName = inst.genericName from rfl]
  cases inst.kind with
  | struct =>
    dsimp only
    rw [index.struct?_bare]
    cases index.struct? inst.genericName with
    | none => exact .none
    | some decl => exact put (decl.like_bare fun _ => rfl).toNode decl.typeParams
  | func =>
    dsimp only
    rw [index.func?_bare]
    cases index.func? inst.genericName with
    | none => exact .none
    | some decl => exact put (decl.like_bare fun _ => rfl).toNode decl.typeParams

def User.bare (user : User) : User := { user with parent := user.parent.map Instantiation.bare }

theorem User.origin_bare (user : User) : user.bare.origin = user.origin := by
  obtain ⟨caller, parent⟩ := user
  cases parent <;> rfl

namespace Walk

def Bares (walk other : Walk) : Prop := other.insts = walk.insts.bare

variable {index} {maxDepth : Nat} {walk other : Walk}

theorem Bares.admitUse (bares : walk.Bares other) (user : User) (use : Use) :
    (walk.admitUse maxDepth user use).Bares (other.admitUse maxDepth user.bare use.bare) := by
  have depth : user.bare.depth = user.depth := congrArg Origin.depth user.origin_bare
  have missing : ((other.insts.registry use.bare.kind).find? use.bare.name use.bare.args).isNone =
      ((walk.insts.registry use.kind).find? use.name use.args).isNone := by
    rw [bares]
    show ((walk.insts.bare.registry use.kind).find? use.name (bareAll use.args)).isNone = _
    rw [Instantiations.registry_bare, Registry.find?_bare, Option.isNone_map]
  unfold Walk.admitUse Bares
  rw [depth, missing]
  split
  · rw [report_insts, report_insts, bares]
  · show (other.insts.register use.kind use.name (bareAll use.args) ⟨Span.nowhere, user.caller⟩ user.bare.origin).1 = _
    rw [bares, user.origin_bare]
    exact walk.insts.register_bare use.kind use.name use.args ⟨use.site, user.caller⟩ user.origin

theorem Bares.request (bares : walk.Bares other) (user : User) (use : Use) :
    (walk.request index maxDepth user use).Bares (other.request index.bare maxDepth user.bare use.bare) := by
  have arity : Subst.arityError? (index.bare.paramsOf use.bare.kind use.bare.name) use.bare.args =
      Subst.arityError? (index.paramsOf use.kind use.name) use.args := by
    show Subst.arityError? (index.bare.paramsOf use.kind use.name) (bareAll use.args) = _
    rw [index.paramsOf_bare, Subst.arityError?_bare]
  unfold Walk.request
  rw [arity]
  split
  · unfold Bares
    rw [report_insts, report_insts, bares]
  · exact bares.admitUse user use

theorem Bares.requests (bares : walk.Bares other) (user : User) (uses : List Use) :
    (uses.foldl (Walk.request index maxDepth user) walk).Bares
      ((uses.map Use.bare).foldl (Walk.request index.bare maxDepth user.bare) other) := by
  induction uses generalizing walk other with
  | nil => exact bares
  | cons use rest ih => exact ih (bares.request user use)

theorem Bares.expandOne (bares : walk.Bares other) (inst : Instantiation) :
    (walk.expandOne index maxDepth inst).Bares (other.expandOne index.bare maxDepth inst.bare) := by
  have both := index.specialized?_bare inst
  unfold Walk.expandOne
  generalize index.specialized? inst = found, index.bare.specialized? inst.bare = found' at both
  cases both with
  | none => exact bares
  | some both =>
    dsimp only
    rw [← both.2, Node.uses_bare index _ both.1]
    exact bares.requests { caller := inst.mangled, parent := some inst } _

theorem expandFrom_struct {structs : Nat} {inst : Instantiation} (found : walk.insts.structs.entries[structs]? = some inst)
    (funcs : Nat) : walk.expandFrom index maxDepth structs funcs =
      (walk.expandOne index maxDepth inst).expandFrom index maxDepth (structs + 1) funcs := by
  rw [Walk.expandFrom]
  split
  next here => cases found.symm.trans here; rfl
  next missing => cases found.symm.trans missing

theorem expandFrom_func {structs funcs : Nat} {inst : Instantiation} (missing : walk.insts.structs.entries[structs]? = none)
    (found : walk.insts.funcs.entries[funcs]? = some inst) : walk.expandFrom index maxDepth structs funcs =
      (walk.expandOne index maxDepth inst).expandFrom index maxDepth structs (funcs + 1) := by
  rw [Walk.expandFrom]
  split
  next here => cases missing.symm.trans here
  next =>
    split
    next here => cases found.symm.trans here; rfl
    next missing => cases found.symm.trans missing

theorem expandFrom_done {structs funcs : Nat} (noStruct : walk.insts.structs.entries[structs]? = none)
    (noFunc : walk.insts.funcs.entries[funcs]? = none) : walk.expandFrom index maxDepth structs funcs = walk := by
  rw [Walk.expandFrom]
  split
  next here => cases noStruct.symm.trans here
  next =>
    split
    next here => cases noFunc.symm.trans here
    next => rfl

theorem Bares.expandFrom (bares : walk.Bares other) (structs funcs : Nat) :
    (walk.expandFrom index maxDepth structs funcs).Bares (other.expandFrom index.bare maxDepth structs funcs) := by
  have entries {walk other : Walk} (bares : walk.Bares other) (kind : InstKind) (place : Nat)
      {inst? : Option Instantiation} (found : (walk.insts.registry kind).entries[place]? = inst?) :
      (other.insts.registry kind).entries[place]? = inst?.map Instantiation.bare := by
    rw [bares, Instantiations.registry_bare, ← found]
    exact List.getElem?_map
  fun_induction Walk.expandFrom index maxDepth walk structs funcs generalizing other with
  | case1 walk structs funcs inst found ih =>
    rw [expandFrom_struct (entries bares .struct structs found)]
    exact ih (bares.expandOne inst)
  | case2 walk structs funcs missing inst found ih =>
    rw [expandFrom_func (entries bares .struct structs missing) (entries bares .func funcs found)]
    exact ih (bares.expandOne inst)
  | case3 walk structs funcs noStruct noFunc =>
    rw [expandFrom_done (entries bares .struct structs noStruct) (entries bares .func funcs noFunc)]
    exact bares

theorem Bares.collect (bares : walk.Bares other) (program : Program) :
    (walk.collect program maxDepth).Bares (other.collect program.bare maxDepth) := by
  have plain : program.bare.decls.filter (!·.isGeneric) = (program.decls.filter (!·.isGeneric)).map Decl.bare := by
    show (program.decls.map Decl.bare).filter _ = _
    rw [List.filter_map]
    congr 2
    funext decl
    exact congrArg (!·) decl.isGeneric_bare
  unfold Walk.collect
  dsimp only
  rw [plain, Index.ofProgram_bare]
  generalize program.decls.filter (!·.isGeneric) = decls
  induction decls generalizing walk other with
  | nil => exact bares
  | cons decl rest ih =>
    refine ih ?_
    dsimp only
    have uses := Node.uses_bare (Index.ofProgram program) {} (decl.like_bare fun _ => rfl).toNode
    rw [show ({} : Subst).bare = {} from rfl] at uses
    rw [uses, decl.name_bare]
    exact bares.requests { caller := decl.name } _

end Walk

theorem prepare_bare (program : Program) (maxDepth : Nat) :
    (prepare program maxDepth).insts.bare =
      (Walk.expand program.bare maxDepth (Walk.collect program.bare maxDepth { insts := {} })).insts := by
  have begins : Walk.Bares { insts := { collisions := .once [] } } { insts := {} } := rfl
  unfold prepare Walk.expand
  rw [Index.ofProgram_bare]
  exact ((begins.collect program).expandFrom 0 0).symm

end GenericC
