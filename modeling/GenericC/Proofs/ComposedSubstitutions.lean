import GenericC.Proofs.ExpansionSteps
import GenericC.Proofs.ReplacedParameters

/-! One substitution after another. A generic that is used inside another generic has arguments that name the
parameters of the outer one. Its types can be specialized in two ways: put the arguments in as they are written and
then replace the outer parameters, or replace the outer parameters in the arguments first. The expansion takes the
second way. Both lead to the same type unless the outer substitution binds a name that the inner generic writes
itself. -/

namespace GenericC

namespace Subst

/-- Parameters are bound to replaced arguments just as to the written ones, the first of several bindings included. -/
theorem find?_ofParams_types (params : List TypeParam) (args : List TypeExpr) (outer : Subst) (name : Text) :
    (ofParams params (outer.types args)).find? name = ((ofParams params args).find? name).map outer.type := by
  exact lookup_zip_map outer.type _ args name

/-- A name means the same in both ways if it is a parameter, or if the outer substitution leaves it alone. -/
theorem find?_composed {params : List TypeParam} {args : List TypeExpr} (paired : params.length = args.length)
    (outer : Subst) {name : Text} (apart : name ∈ params.map (·.name) ∨ outer.find? name = none) :
    (∃ arg, (ofParams params args).find? name = some arg ∧
        (ofParams params (outer.types args)).find? name = some (outer.type arg)) ∨
      ((ofParams params args).find? name = none ∧ (ofParams params (outer.types args)).find? name = none ∧
        outer.find? name = none) := by
  rw [find?_ofParams_types]
  cases found : (ofParams params args).find? name with
  | some arg => exact .inl ⟨arg, rfl, rfl⟩
  | none =>
    refine .inr ⟨rfl, rfl, apart.resolve_left fun member => ?_⟩
    have bound := find?_ofParams_isSome paired member
    rw [found] at bound
    cases bound

theorem type_type_ofParams {params : List TypeParam} {args : List TypeExpr} (paired : params.length = args.length)
    (outer : Subst) {type : TypeExpr} (apart : ∀ name ∈ type.names, name ∈ params.map (·.name) ∨ outer.find? name = none) :
    outer.type ((ofParams params args).type type) = (ofParams params (outer.types args)).type type := by
  induction type using TypeExpr.byParts with
  | absent => rfl
  | named name loc =>
    rw [type_named, type_named]
    rcases find?_composed paired outer (apart name List.mem_cons_self) with ⟨arg, inner, both⟩ | ⟨inner, both, free⟩
    · rw [inner, both, Option.getD_some, Option.getD_some]
    · rw [inner, both, Option.getD_none, type_named, free, Option.getD_none]
  | applied name arguments loc ih =>
    rw [type_applied, type_applied]
    rcases find?_composed paired outer (apart name List.mem_cons_self) with ⟨arg, inner, both⟩ | ⟨inner, both, free⟩
    · rw [inner, both, Option.getD_some, Option.getD_some]
    · have below : outer.types ((ofParams params args).types arguments) =
          (ofParams params (outer.types args)).types arguments := by
        unfold types
        rw [List.map_map]
        refine List.map_congr_left fun argument member => ih argument member fun inside written => apart inside ?_
        rw [TypeExpr.names, TypeExpr.namesOfAll_eq]
        exact List.mem_cons_of_mem _ (List.mem_flatMap.mpr ⟨argument, member, written⟩)
      rw [inner, both, Option.getD_none, Option.getD_none, type_applied, free, Option.getD_none, below]
  | pointer elem loc ih =>
    rw [type_pointer, type_pointer, type_pointer, ih apart]

end Subst

/-- A call with type arguments in a body is used with the arguments that the substitution of the body makes of them. -/
theorem Node.uses_call {index : Index} (outer : Subst) {body : Node} {label : NodeLabel} (member : label ∈ body.labels)
    (call : label.isGenericCall = true) (declared : (index.func? label.callee).isSome = true) :
    { kind := .func, name := label.callee, args := outer.types label.types, site := label.span } ∈
      body.uses index outer := by
  refine List.mem_flatMap.mpr ⟨label, member, ?_⟩
  unfold NodeLabel.uses
  dsimp only
  rw [call, declared, Bool.and_self, if_pos rfl]
  exact List.mem_append_right _ List.mem_cons_self

/-- Putting the arguments of a generic in and then replacing the parameters of the generic that uses it gives the same
type as replacing them in the arguments first, provided that the outer substitution binds no name of the type but
parameters. The expansion replaces them in the arguments first: a call in the body of a generic asks for an
instantiation under whose substitution every such type is the one that the two steps give. -/
theorem specialized_once (params : List TypeParam) (args : List TypeExpr) (paired : params.length = args.length)
    (outer : Subst) (type : TypeExpr)
    (apart : ∀ name ∈ type.names, name ∈ params.map (·.name) ∨ outer.find? name = none) :
    outer.type ((Subst.ofParams params args).type type) = (Subst.ofParams params (outer.types args)).type type ∧
      ∀ (index : Index) (body : Node), ∀ label ∈ body.labels, label.isGenericCall = true → label.types = args →
        ∀ decl : FuncDecl, index.func? label.callee = some decl → decl.typeParams = params →
          ∃ use ∈ body.uses index outer, use.kind = .func ∧ use.name = label.callee ∧
            ∀ inst : Instantiation, inst.kind = use.kind → inst.genericName = use.name → inst.typeArgs = use.args →
              ∃ subst, index.specialized? inst = some (decl.toNode, subst) ∧
                subst.type type = outer.type ((Subst.ofParams params args).type type) := by
  have composed := Subst.type_type_ofParams paired outer apart
  refine ⟨composed, fun index body label member call written decl declared own => ?_⟩
  subst own written
  refine ⟨_, Node.uses_call outer member call (by rw [declared]; rfl), rfl, rfl, fun inst kind name same => ?_⟩
  have fits : decl.typeParams.length = inst.typeArgs.length := by
    rw [same, paired, Subst.types, List.length_map]
  refine ⟨_, specialized?_eq_some.mpr ⟨decl.typeParams, ?_, fits, rfl⟩, ?_⟩
  · rw [kind, name]
    simp [Index.declaration?, declared]
  · rw [same, composed]

/-- With stars on a parameter, a parameter applied to arguments, a repeated parameter and an argument that names the
parameter of the outer generic, which has the name of one of the inner parameters. -/
theorem pair_specialized_once :
    let name (text : String) : TypeExpr := .named text .nowhere
    let param (text : String) : TypeParam := ⟨text, .nowhere⟩
    let type : TypeExpr := .applied "Pair" [.pointer (name "T") .nowhere, .applied "U" [name "long"] .nowhere] .nowhere
    let args : List TypeExpr := [.applied "Box" [name "T"] .nowhere, .pointer (name "T") .nowhere, name "char"]
    let outer : Subst := ⟨[("T", .pointer (name "int") .nowhere)]⟩
    outer.type ((Subst.ofParams [param "T", param "U", param "T"] args).type type) =
        (Subst.ofParams [param "T", param "U", param "T"] (outer.types args)).type type ∧
      outer.type ((Subst.ofParams [param "T", param "U", param "T"] args).type type) =
        .applied "Pair" [.pointer (.applied "Box" [.pointer (name "int") .nowhere] .nowhere) .nowhere,
          .pointer (.pointer (name "int") .nowhere) .nowhere] .nowhere := by
  intro name param type args outer
  exact ⟨(specialized_once _ args rfl outer type (by decide +kernel)).1, rfl⟩

end GenericC
