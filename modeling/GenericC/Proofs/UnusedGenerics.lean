import GenericC.Proofs.LookedUpNames

/-! A generic that no declaration names, among those that are not generic and those that are instantiated, is never looked
up. Without its declarations the same instantiations are found, in the same order and with the same reports. -/

namespace GenericC

def Program.without (program : Program) (name : Text) : Program :=
  { program with decls := program.decls.filter fun decl => !(decl.isGeneric && decl.name = name) }

/-- Whoever has nothing to do with generic declarations does not miss those that are left out. -/
theorem Program.flatMap_without {α : Type} (program : Program) (name : Text) {f : Decl → List α}
    (blind : ∀ decl, decl.isGeneric = true → f decl = []) :
    (program.without name).decls.flatMap f = program.decls.flatMap f := by
  unfold without
  dsimp only
  induction program.decls with
  | nil => rfl
  | cons decl rest ih =>
    rw [List.filter_cons, List.flatMap_cons, ← ih]
    split
    · rfl
    next dropped =>
      simp only [Bool.not_eq_true, Bool.not_eq_false', Bool.and_eq_true] at dropped
      rw [blind decl dropped.1, List.nil_append]

theorem Program.filterMap_without {α : Type} (program : Program) (name : Text) {f : Decl → Option α}
    (blind : ∀ decl, decl.isGeneric = true → f decl = none) :
    (program.without name).decls.filterMap f = program.decls.filterMap f := by
  rw [List.filterMap_eq_flatMap_toList, List.filterMap_eq_flatMap_toList]
  exact program.flatMap_without name fun decl generic => by rw [blind decl generic, Option.toList_none]

namespace Index

variable {program : Program} {removed name : Text}

theorem struct?_without (other : name ≠ removed) :
    (ofProgram (program.without removed)).struct? name = (ofProgram program).struct? name := by
  have same : (ofProgram (program.without removed)).structs.filter (·.name = name) =
      (ofProgram program).structs.filter (·.name = name) := by
    simp only [ofProgram, Program.without, List.filter_filterMap, List.filterMap_filter]
    refine List.filterMap_congr fun decl _ => ?_
    cases decl with
    | struct decl =>
      by_cases generic : decl.isGeneric = true <;> by_cases own : decl.name = removed <;>
        simp [Decl.isGeneric, Decl.name, generic, own, Option.filter, Ne.symm other]
    | _ => simp
  unfold struct?
  rw [same]

theorem func?_without (other : name ≠ removed) :
    (ofProgram (program.without removed)).func? name = (ofProgram program).func? name := by
  have same : (ofProgram (program.without removed)).funcs.filter (·.name = name) =
      (ofProgram program).funcs.filter (·.name = name) := by
    simp only [ofProgram, Program.without, List.filter_filterMap, List.filterMap_filter]
    refine List.filterMap_congr fun decl _ => ?_
    cases decl with
    | function decl =>
      by_cases generic : decl.isGeneric = true <;> by_cases own : decl.name = removed <;>
        simp [Decl.isGeneric, Decl.name, generic, own, Option.filter, Ne.symm other]
    | _ => simp
  unfold func?
  rw [same]

theorem plain_without (program : Program) (removed : Text) :
    (ofProgram (program.without removed)).plain = (ofProgram program).plain := by
  refine program.flatMap_without removed fun decl generic => ?_
  cases decl with
  | struct decl => exact if_pos generic
  | function decl => rfl
  | _ => cases generic

end Index

def Subst.Avoids (subst : Subst) (removed : Text) : Prop := ∀ binding ∈ subst.bindings, removed ∉ binding.2.heads

/-- An instantiation has to do with other generics only. -/
structure Instantiation.Avoids (inst : Instantiation) (removed : Text) : Prop where
  name : inst.genericName ≠ removed
  args : ∀ arg ∈ inst.typeArgs, removed ∉ arg.heads

section
variable {removed : Text} {subst : Subst} {tree : Node}

theorem Subst.avoids_empty (removed : Text) : ({} : Subst).Avoids removed := fun _ member => nomatch member

theorem Subst.avoids_ofParams {args : List TypeExpr} (params : List TypeParam) (avoid : ∀ arg ∈ args, removed ∉ arg.heads) :
    (Subst.ofParams params args).Avoids removed :=
  fun _ member => avoid _ (List.of_mem_zip member).2

theorem Subst.Avoids.type (avoids : subst.Avoids removed) {type : TypeExpr} (unnamed : removed ∉ type.heads) :
    removed ∉ (subst.type type).heads := by
  intro member
  rcases Subst.mem_heads_type member with early | ⟨binding, inside, named⟩
  · exact unnamed early
  · exact avoids binding inside named

theorem Node.unnamed_type (unnamed : removed ∉ tree.generics) {label : NodeLabel} (member : label ∈ tree.labels)
    {type : TypeExpr} (written : type ∈ label.types) : removed ∉ type.heads := fun named =>
  unnamed (List.mem_flatMap.mpr ⟨label, member, List.mem_append_left _ (List.mem_flatMap.mpr ⟨type, written, named⟩)⟩)

theorem Node.unnamed_callee (unnamed : removed ∉ tree.generics) {label : NodeLabel} (member : label ∈ tree.labels)
    (call : label.isGenericCall = true) : label.callee ≠ removed := by
  rintro rfl
  refine unnamed (List.mem_flatMap.mpr ⟨label, member, List.mem_append_right _ ?_⟩)
  rw [if_pos call]
  exact List.mem_singleton_self _

theorem Node.Uses.avoids {index : Index} {kind : InstKind} {name : Text} {args : List TypeExpr}
    (uses : tree.Uses index subst kind name args) (unnamed : removed ∉ tree.generics) (avoids : subst.Avoids removed) :
    name ≠ removed ∧ ∀ arg ∈ args, removed ∉ arg.heads := by
  cases uses with
  | @struct label type name args loc label_mem type_mem within declared =>
    have type := avoids.type (tree.unnamed_type unnamed label_mem type_mem)
    have own : removed ∉ (TypeExpr.applied name args loc).heads := fun named => type (within.heads named)
    rw [TypeExpr.heads, TypeExpr.headsOfAll_eq, List.mem_cons, not_or] at own
    exact ⟨Ne.symm own.1, fun arg member named => own.2 (List.mem_flatMap.mpr ⟨arg, member, named⟩)⟩
  | @func label label_mem call typed declared =>
    refine ⟨tree.unnamed_callee unnamed label_mem (by simpa [NodeLabel.isGenericCall] using ⟨call, typed⟩), ?_⟩
    intro arg member
    obtain ⟨type, written, rfl⟩ := List.mem_map.mp member
    exact avoids.type (tree.unnamed_type unnamed label_mem written)

theorem Node.alike_of_unnamed {first second : Index} (unnamed : removed ∉ tree.generics) (avoids : subst.Avoids removed)
    (structs : ∀ name ≠ removed, second.struct? name = first.struct? name)
    (funcs : ∀ name ≠ removed, second.func? name = first.func? name) : tree.Alike first second subst := by
  intro label member
  refine ⟨fun type written name named => structs name ?_, fun call => funcs _ (tree.unnamed_callee unnamed member call)⟩
  rintro rfl
  exact avoids.type (tree.unnamed_type unnamed member written) named

end

/-- A generic is not named in any declaration that is not generic or that was instantiated. -/
structure Program.Unused (program : Program) (maxDepth : Nat) (name : Text) : Prop where
  plain : ∀ decl ∈ program.decls, decl.isGeneric = false → name ∉ decl.toNode.generics
  opened : ∀ entry, (prepare program maxDepth).Has entry → ∀ node params,
    (Index.ofProgram program).declaration? entry.kind entry.genericName = some (node, params) → name ∉ node.generics

section
variable {program : Program} {maxDepth : Nat} {removed : Text}

theorem specialized?_avoids {inst : Instantiation} (avoids : inst.Avoids removed) {node : Node} {subst : Subst}
    (found : (Index.ofProgram program).specialized? inst = some (node, subst)) : subst.Avoids removed := by
  obtain ⟨params, -, -, rfl⟩ := specialized?_eq_some.mp found
  exact Subst.avoids_ofParams params avoids.args

/-- Along the order in which they were found, nothing that is instantiated has to do with a generic that is not named. -/
theorem Derivation.avoids {latest : List Instantiation} (derivation : Derivation program latest)
    (plain : ∀ decl ∈ program.decls, decl.isGeneric = false → removed ∉ decl.toNode.generics)
    (opened : ∀ inst ∈ latest, ∀ node subst, (Index.ofProgram program).specialized? inst = some (node, subst) →
      removed ∉ node.generics) : ∀ inst ∈ latest, inst.Avoids removed := by
  induction derivation with
  | nil => exact fun _ member => nomatch member
  | @cons inst earlier derived rest ih =>
    have before := ih fun other member => opened other (List.mem_cons_of_mem _ member)
    refine List.forall_mem_cons.mpr ⟨?_, before⟩
    cases derived with
    | written writes root top =>
      obtain ⟨decl, member, notGeneric, uses⟩ := writes
      obtain ⟨name, args⟩ := uses.avoids (plain decl member notGeneric) (Subst.avoids_empty removed)
      exact ⟨name, args⟩
    | @opened parent member opens link depth =>
      obtain ⟨node, subst, found, uses⟩ := opens
      obtain ⟨name, args⟩ := uses.avoids (opened parent (List.mem_cons_of_mem _ member) node subst found)
        (specialized?_avoids (before parent member) found)
      exact ⟨name, args⟩

theorem declaration?_without {kind : InstKind} {name : Text} (other : name ≠ removed) :
    (Index.ofProgram (program.without removed)).declaration? kind name = (Index.ofProgram program).declaration? kind name := by
  cases kind with
  | struct => exact congrArg (Option.map _) (Index.struct?_without other)
  | func => exact congrArg (Option.map _) (Index.func?_without other)

theorem Walk.collect_without (plain : ∀ decl ∈ program.decls, decl.isGeneric = false → removed ∉ decl.toNode.generics)
    (walk : Walk) : walk.collect (program.without removed) maxDepth = walk.collect program maxDepth := by
  have kept : (program.without removed).decls.filter (!·.isGeneric) = program.decls.filter (!·.isGeneric) := by
    unfold Program.without
    rw [List.filter_filter]
    refine List.filter_congr fun decl _ => ?_
    cases decl.isGeneric <;> rfl
  unfold Walk.collect
  dsimp only
  rw [kept]
  refine List.foldl_ext _ _ _ fun walk decl member => ?_
  obtain ⟨inside, notGeneric⟩ : decl ∈ program.decls ∧ decl.isGeneric = false := by simpa using member
  exact Walk.requests_alike (Node.alike_of_unnamed (plain decl inside notGeneric) (Subst.avoids_empty removed)
    (fun _ => Index.struct?_without) fun _ => Index.func?_without)

/-- All that is instantiated has to do with other generics, and so have the declarations of all that. -/
structure PassResult.Clear (program : Program) (removed : Text) (result : PassResult) : Prop where
  avoids : ∀ entry, result.Has entry → entry.Avoids removed
  unnamed : ∀ entry, result.Has entry → ∀ node subst, (Index.ofProgram program).specialized? entry = some (node, subst) →
    removed ∉ node.generics

theorem Program.Unused.clear (unused : program.Unused maxDepth removed) :
    (prepare program maxDepth).Clear program removed := by
  have traced := ((Walk.traced_empty program maxDepth).collect).expandFrom 0 0
  generalize ended : Walk.expandFrom (.ofProgram program) maxDepth _ 0 0 = walk at traced
  have result : prepare program maxDepth = walk.result := congrArg Walk.result ended
  have named := unused.opened
  rw [result] at named ⊢
  have unnamed : ∀ entry, walk.result.Has entry → ∀ node subst,
      (Index.ofProgram program).specialized? entry = some (node, subst) → removed ∉ node.generics := by
    intro entry has node subst found
    obtain ⟨params, declared, -⟩ := specialized?_eq_some.mp found
    exact named entry has node params declared
  have avoids := traced.derivation.avoids unused.plain (by
    intro core member node subst found
    obtain ⟨entry, -, has, rfl⟩ := traced.findKey? member
    exact unnamed entry has node subst found)
  refine ⟨?_, unnamed⟩
  rintro entry ⟨kind, inside⟩
  have own := avoids entry.core (traced.mem_latest.mpr ⟨kind, List.mem_map_of_mem inside⟩)
  exact ⟨own.name, own.args⟩

/-- The same instantiations, with the same places, depths and reports, are found without an unused generic. -/
theorem Program.Unused.prepare (unused : program.Unused maxDepth removed) :
    GenericC.prepare (program.without removed) maxDepth = GenericC.prepare program maxDepth := by
  have clear := unused.clear
  unfold GenericC.prepare Walk.expand at clear ⊢
  rw [Walk.collect_without unused.plain]
  refine congrArg Walk.result (Walk.expandFrom_alike (Walk.atTop_empty.collect program maxDepth).inStep ?_)
  intro kind core member
  obtain ⟨entry, inside, rfl⟩ := List.mem_map.mp member
  have has := clear.avoids entry ⟨kind, inside⟩
  refine ⟨?_, fun node subst found => ?_⟩
  · exact congrArg (Option.bind · _) (declaration?_without has.name)
  · exact Node.alike_of_unnamed (clear.unnamed entry ⟨kind, inside⟩ node subst found) (specialized?_avoids has found)
      (fun _ => Index.struct?_without) fun _ => Index.func?_without

end
end GenericC
