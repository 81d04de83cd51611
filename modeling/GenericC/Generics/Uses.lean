import GenericC.Generics.Index
import GenericC.Generics.Registry

/-! The uses of generics in a declaration: applied struct types wherever a type is written, and calls
with type arguments. A type argument comes before the type it belongs to. -/

namespace GenericC

structure Use where
  kind : InstKind
  name : Text
  args : List TypeExpr
  site : Span
deriving Repr

mutual
def TypeExpr.uses (index : Index) (site : Span) : TypeExpr → List Use
  | .applied name args _ =>
    TypeExpr.usesOfAll index site args ++
      if (index.struct? name).isSome then [{ kind := .struct, name, args, site }] else []
  | .pointer elem _ => elem.uses index site
  | .named _ _ => []
  | .absent => []

def TypeExpr.usesOfAll (index : Index) (site : Span) : List TypeExpr → List Use
  | [] => []
  | first :: rest => first.uses index site ++ TypeExpr.usesOfAll index site rest
end

namespace NodeLabel

/-- Where a type on a node is written; a type without a place of its own is found at the node. -/
def siteOf (label : NodeLabel) (type : TypeExpr) : Span :=
  if type.span = Span.nowhere then label.span else type.span

def isGenericCall (label : NodeLabel) : Bool := label.kind = .call && !label.types.isEmpty

def uses (index : Index) (subst : Subst) (label : NodeLabel) : List Use :=
  let inTypes := label.types.flatMap fun type => (subst.type type).uses index (label.siteOf type)
  if label.isGenericCall && (index.func? label.callee).isSome then
    inTypes ++ [{ kind := .func, name := label.callee, args := subst.types label.types, site := label.span }]
  else inTypes

end NodeLabel

def Node.uses (index : Index) (subst : Subst) (tree : Node) : List Use :=
  tree.labels.flatMap (NodeLabel.uses index subst)

namespace Index

def paramsOf (index : Index) (kind : InstKind) (name : Text) : List TypeParam :=
  match kind with
  | .struct => ((index.struct? name).map (·.typeParams)).getD []
  | .func => ((index.func? name).map (·.typeParams)).getD []

def specialized? (index : Index) (inst : Instantiation) : Option (Node × Subst) :=
  let declared : Option (Node × List TypeParam) := match inst.kind with
    | .struct => (index.struct? inst.genericName).map fun decl => (decl.toNode, decl.typeParams)
    | .func => (index.func? inst.genericName).map fun decl => (decl.toNode, decl.typeParams)
  declared.bind fun (node, params) =>
    if params.length = inst.typeArgs.length then some (node, Subst.ofParams params inst.typeArgs) else none

end Index
end GenericC
