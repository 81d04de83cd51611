import GenericC.Proofs.BareExpansion
import GenericC.Proofs.OriginChains

/-! Which names of generics are looked up for a declaration: the heads of the types on its nodes, with the type arguments
in scope put in, and the functions that are called with types. Two indexes that agree about these lead to the same
instantiations. -/

namespace GenericC

mutual
def TypeExpr.heads : TypeExpr → List Text
  | .absent => []
  | .named _ _ => []
  | .applied name args _ => name :: TypeExpr.headsOfAll args
  | .pointer elem _ => elem.heads

def TypeExpr.headsOfAll : List TypeExpr → List Text
  | [] => []
  | first :: rest => first.heads ++ TypeExpr.headsOfAll rest
end

theorem TypeExpr.headsOfAll_eq (types : List TypeExpr) : headsOfAll types = types.flatMap heads := by
  induction types with
  | nil => rfl
  | cons first rest ih => rw [headsOfAll, ih, List.flatMap_cons]

theorem TypeExpr.Within.heads {inner type : TypeExpr} (within : inner.Within type) : inner.heads ⊆ type.heads := by
  induction within with
  | here => exact List.Subset.refl _
  | elem below ih => exact ih
  | arg member below ih =>
    intro name inside
    rw [TypeExpr.heads, TypeExpr.headsOfAll_eq]
    exact List.mem_cons_of_mem _ (List.mem_flatMap.mpr ⟨_, member, ih inside⟩)

theorem Subst.mem_heads_type {subst : Subst} {type : TypeExpr} {name : Text} (member : name ∈ (subst.type type).heads) :
    name ∈ type.heads ∨ ∃ binding ∈ subst.bindings, name ∈ binding.2.heads := by
  induction type using TypeExpr.byParts with
  | absent => exact .inl member
  | named called loc =>
    rw [type_named] at member
    cases found : subst.find? called with
    | none =>
      rw [found] at member
      exact .inl member
    | some bound =>
      rw [found] at member
      exact .inr ⟨_, subst.find?_mem found, member⟩
  | pointer elem loc ih =>
    rw [type_pointer] at member
    exact ih member
  | applied called args loc ih =>
    rw [type_applied] at member
    cases found : subst.find? called with
    | some bound =>
      rw [found] at member
      exact .inr ⟨_, subst.find?_mem found, member⟩
    | none =>
      rw [found, Option.getD_none, TypeExpr.heads, TypeExpr.headsOfAll_eq] at member
      rw [TypeExpr.heads, TypeExpr.headsOfAll_eq]
      rcases List.mem_cons.mp member with rfl | below
      · exact .inl List.mem_cons_self
      · obtain ⟨changed, inside, named⟩ := List.mem_flatMap.mp below
        obtain ⟨arg, original, rfl⟩ := List.mem_map.mp inside
        apply (ih arg original named).imp_left
        exact fun early => List.mem_cons_of_mem _ (List.mem_flatMap.mpr ⟨arg, original, early⟩)

def NodeLabel.generics (label : NodeLabel) : List Text :=
  label.types.flatMap TypeExpr.heads ++ if label.isGenericCall then [label.callee] else []

def Node.generics (tree : Node) : List Text := tree.labels.flatMap NodeLabel.generics

/-- Two indexes agree about what is looked up for a node. -/
structure NodeLabel.Alike (first second : Index) (subst : Subst) (label : NodeLabel) : Prop where
  structs : ∀ type ∈ label.types, ∀ name ∈ (subst.type type).heads, second.struct? name = first.struct? name
  func : label.isGenericCall → second.func? label.callee = first.func? label.callee

def Node.Alike (first second : Index) (subst : Subst) (tree : Node) : Prop :=
  ∀ label ∈ tree.labels, label.Alike first second subst

section
variable {first second : Index}

theorem TypeExpr.uses_alike {type : TypeExpr} (site : Span)
    (same : ∀ name ∈ type.heads, second.struct? name = first.struct? name) :
    type.uses second site = type.uses first site := by
  induction type using TypeExpr.byParts with
  | absent | named name loc => rfl
  | pointer elem loc ih => exact ih same
  | applied name args loc ih =>
    rw [heads, headsOfAll_eq, List.forall_mem_cons] at same
    have below : args.flatMap (uses second site) = args.flatMap (uses first site) :=
      List.flatMap_congr fun arg member =>
        ih arg member fun name inside => same.2 name (List.mem_flatMap.mpr ⟨arg, member, inside⟩)
    rw [uses, uses, usesOfAll_eq, usesOfAll_eq, below, same.1]

theorem Node.Alike.uses {subst : Subst} {tree : Node} (alike : tree.Alike first second subst) :
    tree.uses second subst = tree.uses first subst := by
  refine List.flatMap_congr fun label member => ?_
  have own := alike label member
  have types : label.types.flatMap (fun type => (subst.type type).uses second (label.siteOf type)) =
      label.types.flatMap fun type => (subst.type type).uses first (label.siteOf type) :=
    List.flatMap_congr fun type inside => TypeExpr.uses_alike _ (own.structs type inside)
  unfold NodeLabel.uses
  dsimp only
  rw [types]
  by_cases call : label.isGenericCall = true
  · rw [own.func call]
  · simp only [call, Bool.false_and]

theorem Node.Alike.paramsOf {subst : Subst} {tree : Node} (alike : tree.Alike first second subst) {use : Use}
    (member : use ∈ tree.uses first subst) : second.paramsOf use.kind use.name = first.paramsOf use.kind use.name := by
  obtain ⟨label, inside, own⟩ := List.mem_flatMap.mp member
  rcases NodeLabel.mem_uses.mp own with ⟨type, written, used⟩ | ⟨call, typed, -, rfl⟩
  · obtain ⟨kind, -, -, loc, within⟩ := TypeExpr.mem_uses.mp used
    have named : use.name ∈ (subst.type type).heads := within.heads List.mem_cons_self
    rw [kind, Index.paramsOf, Index.paramsOf, (alike label inside).structs type written _ named]
  · have generic : label.isGenericCall := by simpa [NodeLabel.isGenericCall] using ⟨call, typed⟩
    simp only [Index.paramsOf, (alike label inside).func generic]

namespace Walk

theorem request_alike (maxDepth : Nat) (user : User) (walk : Walk) {use : Use}
    (same : second.paramsOf use.kind use.name = first.paramsOf use.kind use.name) :
    walk.request second maxDepth user use = walk.request first maxDepth user use := by
  unfold request
  rw [same]

theorem requests_alike {maxDepth : Nat} {user : User} {walk : Walk} {subst : Subst} {tree : Node}
    (alike : tree.Alike first second subst) :
    (tree.uses second subst).foldl (request second maxDepth user) walk =
      (tree.uses first subst).foldl (request first maxDepth user) walk := by
  rw [alike.uses]
  apply List.foldl_ext
  intro walk use member
  exact request_alike maxDepth user walk (alike.paramsOf member)

/-- Two indexes agree about the declaration of an instantiation and about what is looked up for it. -/
structure Opened (first second : Index) (inst : Instantiation) : Prop where
  same : second.specialized? inst = first.specialized? inst
  alike : ∀ node subst, first.specialized? inst = some (node, subst) → node.Alike first second subst

theorem Opened.expandOne {inst : Instantiation} (opened : Opened first second inst) (maxDepth : Nat) (walk : Walk) :
    walk.expandOne second maxDepth inst = walk.expandOne first maxDepth inst := by
  unfold Walk.expandOne
  rw [opened.same]
  cases found : first.specialized? inst with
  | none => rfl
  | some pair => exact requests_alike (opened.alike pair.1 pair.2 found)

theorem Opened.of_core {inst : Instantiation} (opened : Opened first second inst.core) : Opened first second inst :=
  ⟨opened.same, opened.alike⟩

theorem expandFrom_cores (index : Index) (maxDepth : Nat) {walk : Walk} (inStep : walk.InStep) (structs funcs : Nat)
    (kind : InstKind) : walk.cores kind ⊆ (walk.expandFrom index maxDepth structs funcs).cores kind := by
  have step {walk : Walk} (inStep : walk.InStep) (inst : Instantiation) :
      walk.cores kind ⊆ (walk.expandOne index maxDepth inst).cores kind := by
    obtain ⟨added, grown, -⟩ := (expandOne_adds index maxDepth inStep inst).2 kind
    rw [grown]
    exact List.subset_append_left _ _
  fun_induction Walk.expandFrom index maxDepth walk structs funcs with
  | case1 walk structs funcs inst found ih | case2 walk structs funcs missing inst found ih =>
    exact List.Subset.trans (step inStep inst) (ih (expandOne_adds index maxDepth inStep inst).1)
  | case3 walk structs funcs noStruct noFunc => exact List.Subset.refl _

theorem expandFrom_alike {maxDepth : Nat} {walk : Walk} (inStep : walk.InStep) {structs funcs : Nat}
    (opened : ∀ kind, ∀ core ∈ (walk.expandFrom first maxDepth structs funcs).cores kind, Opened first second core) :
    walk.expandFrom second maxDepth structs funcs = walk.expandFrom first maxDepth structs funcs := by
  fun_induction Walk.expandFrom first maxDepth walk structs funcs with
  | case1 walk structs funcs inst found ih =>
    have kept := expandFrom_cores first maxDepth inStep structs funcs .struct
      (List.mem_map_of_mem (List.mem_of_getElem? found))
    rw [expandFrom_struct found] at kept
    rw [expandFrom_struct found, (opened .struct inst.core kept).of_core.expandOne]
    exact ih (expandOne_adds first maxDepth inStep inst).1 opened
  | case2 walk structs funcs missing inst found ih =>
    have kept := expandFrom_cores first maxDepth inStep structs funcs .func
      (List.mem_map_of_mem (List.mem_of_getElem? found))
    rw [expandFrom_func missing found] at kept
    rw [expandFrom_func missing found, (opened .func inst.core kept).of_core.expandOne]
    exact ih (expandOne_adds first maxDepth inStep inst).1 opened
  | case3 walk structs funcs noStruct noFunc => exact expandFrom_done noStruct noFunc

end Walk
end
end GenericC
