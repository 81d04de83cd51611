import GenericC.Generics.Uses
import GenericC.Proofs.TypeKeys

/-! Types after a substitution, and the generics that are used in them. What is used depends on the types that are
put in, but not on where they were written. -/

namespace GenericC

/-- Induction over a type and the types in it. -/
@[elab_as_elim]
theorem TypeExpr.byParts {motive : TypeExpr → Prop} (absent : motive .absent)
    (named : ∀ name loc, motive (.named name loc))
    (applied : ∀ name args loc, (∀ arg ∈ args, motive arg) → motive (.applied name args loc))
    (pointer : ∀ elem loc, motive elem → motive (.pointer elem loc)) (type : TypeExpr) : motive type := by
  exact @TypeExpr.rec motive (fun args => ∀ arg ∈ args, motive arg) absent named applied pointer
    (by simp) (fun _ _ here later => List.forall_mem_cons.mpr ⟨here, later⟩) type

section
variable {α β : Type}

theorem lookup_mem {bound : List (Text × α)} {name : Text} {item : α} (found : bound.lookup name = some item) :
    (name, item) ∈ bound := by
  obtain ⟨front, back, rfl, -⟩ := List.lookup_eq_some_iff.mp found
  exact List.mem_append_right _ List.mem_cons_self

theorem lookup_map (change : α → β) (bound : List (Text × α)) (name : Text) :
    (bound.map (Prod.map id change)).lookup name = (bound.lookup name).map change := by
  induction bound with
  | nil => rfl
  | cons first rest ih =>
    rw [List.map_cons, Prod.map, List.lookup_cons, List.lookup_cons, ih, id_eq]
    split <;> rfl

theorem lookup_zip_map (change : α → β) (names : List Text) (items : List α) (name : Text) :
    (names.zip (items.map change)).lookup name = ((names.zip items).lookup name).map change := by
  rw [List.zip_map_right, lookup_map]

end

namespace Subst

variable (subst : Subst)

@[simp] theorem type_named (name : Text) (loc : Span) :
    subst.type (.named name loc) = (subst.find? name).getD (.named name loc) := rfl

@[simp] theorem type_pointer (elem : TypeExpr) (loc : Span) :
    subst.type (.pointer elem loc) = .pointer (subst.type elem) loc := by
  unfold type
  rw [change?]
  cases subst.change? elem <;> rfl

theorem changeList?_getD (types : List TypeExpr) : (subst.changeList? types).getD types = subst.types types := by
  induction types with
  | nil => rfl
  | cons first rest ih =>
    unfold types type at ih ⊢
    rw [changeList?, List.map_cons, ← ih]
    cases subst.change? first <;> cases subst.changeList? rest <;> rfl

@[simp] theorem type_applied (name : Text) (args : List TypeExpr) (loc : Span) :
    subst.type (.applied name args loc) = (subst.find? name).getD (.applied name (subst.types args) loc) := by
  rw [← changeList?_getD]
  unfold type
  rw [change?]
  cases subst.find? name with
  | some bound => rfl
  | none => cases subst.changeList? args <;> rfl

theorem find?_mem {name : Text} {type : TypeExpr} (found : subst.find? name = some type) :
    (name, type) ∈ subst.bindings := lookup_mem found

def Keyed (subst : Subst) : Prop := ∀ binding ∈ subst.bindings, binding.2.Keyed

variable {subst}

theorem Keyed.type (keyed : subst.Keyed) {type : TypeExpr} (typeKeyed : type.Keyed) : (subst.type type).Keyed := by
  induction type using TypeExpr.byParts with
  | absent => exact typeKeyed
  | named name loc =>
    rw [type_named]
    cases found : subst.find? name with
    | none => exact typeKeyed
    | some bound => exact keyed _ (subst.find?_mem found)
  | applied name args loc ih =>
    rw [type_applied]
    cases found : subst.find? name with
    | some bound => exact keyed _ (subst.find?_mem found)
    | none =>
      refine ⟨typeKeyed.1, (TypeExpr.allKeyed_iff _).mpr ?_⟩
      intro arg member
      obtain ⟨original, inside, rfl⟩ := List.mem_map.mp member
      exact ih original inside ((TypeExpr.allKeyed_iff _).mp typeKeyed.2 original inside)
  | pointer elem loc ih =>
    rw [type_pointer]
    exact ih typeKeyed

theorem Keyed.types (keyed : subst.Keyed) {types : List TypeExpr} (typesKeyed : TypeExpr.AllKeyed types) :
    TypeExpr.AllKeyed (subst.types types) := by
  rw [TypeExpr.allKeyed_iff] at typesKeyed ⊢
  intro type member
  obtain ⟨original, inside, rfl⟩ := List.mem_map.mp member
  exact keyed.type (typesKeyed original inside)

theorem keyed_empty : ({} : Subst).Keyed := fun _ member => nomatch member

theorem keyed_ofParams (params : List TypeParam) {args : List TypeExpr} (argsKeyed : TypeExpr.AllKeyed args) :
    (ofParams params args).Keyed := by
  intro binding member
  exact (TypeExpr.allKeyed_iff args).mp argsKeyed _ (List.of_mem_zip member).2

def Same (first second : Subst) : Prop :=
  ∀ name, (first.find? name).map TypeExpr.bare = (second.find? name).map TypeExpr.bare

theorem Same.type {first second : Subst} (same : first.Same second) (type : TypeExpr) :
    (first.type type).bare = (second.type type).bare := by
  have bound (name : Text) {left right : TypeExpr} (equal : left.bare = right.bare) :
      ((first.find? name).getD left).bare = ((second.find? name).getD right).bare := by
    have := same name
    cases found : first.find? name <;> cases found' : second.find? name <;> simp_all
  induction type using TypeExpr.byParts with
  | absent => rfl
  | named name loc =>
    rw [type_named, type_named]
    exact bound name rfl
  | applied name args loc ih =>
    rw [type_applied, type_applied]
    refine bound name ?_
    have parts : args.map (TypeExpr.bare ∘ first.type) = args.map (TypeExpr.bare ∘ second.type) := List.map_congr_left ih
    simp only [TypeExpr.bare, TypeExpr.bareAll_eq_map, types, List.map_map, parts]
  | pointer elem loc ih =>
    rw [type_pointer, type_pointer, TypeExpr.bare, TypeExpr.bare, ih]

theorem Same.types {first second : Subst} (same : first.Same second) (types : List TypeExpr) :
    TypeExpr.bareAll (first.types types) = TypeExpr.bareAll (second.types types) := by
  simp only [TypeExpr.bareAll_eq_map, Subst.types, List.map_map]
  exact List.map_congr_left fun type _ => same.type type

theorem same_ofParams (params : List TypeParam) {first second : List TypeExpr}
    (same : TypeExpr.bareAll first = TypeExpr.bareAll second) : (ofParams params first).Same (ofParams params second) := by
  intro name
  rw [TypeExpr.bareAll_eq_map, TypeExpr.bareAll_eq_map] at same
  unfold find? ofParams
  rw [← lookup_zip_map, ← lookup_zip_map, same]

end Subst

inductive TypeExpr.Within (inner : TypeExpr) : TypeExpr → Prop where
  | here : inner.Within inner
  | elem {elem : TypeExpr} {loc : Span} (below : inner.Within elem) : inner.Within (.pointer elem loc)
  | arg {name : Text} {args : List TypeExpr} {loc : Span} {arg : TypeExpr} (member : arg ∈ args)
      (below : inner.Within arg) : inner.Within (.applied name args loc)

namespace TypeExpr

theorem usesOfAll_eq (index : Index) (site : Span) (types : List TypeExpr) :
    usesOfAll index site types = types.flatMap (uses index site) := by
  induction types with
  | nil => rfl
  | cons type rest ih => rw [usesOfAll, ih, List.flatMap_cons]

theorem Within.keyed {inner type : TypeExpr} (within : inner.Within type) (keyed : type.Keyed) : inner.Keyed := by
  induction within with
  | here => exact keyed
  | elem below ih => exact ih keyed
  | arg member below ih => exact ih ((allKeyed_iff _).mp keyed.2 _ member)

theorem Within.bare {name : Text} {args : List TypeExpr} {loc : Span} {type other : TypeExpr}
    (within : (applied name args loc).Within type) (same : type.bare = other.bare) :
    ∃ args' loc', (applied name args' loc').Within other ∧ bareAll args = bareAll args' := by
  induction within generalizing other with
  | here =>
    cases other with
    | applied name' args' loc' =>
      simp only [TypeExpr.bare, applied.injEq] at same
      obtain ⟨rfl, equal, -⟩ := same
      exact ⟨args', loc', .here, equal⟩
    | _ => cases same
  | elem below ih =>
    cases other with
    | pointer elem' loc' =>
      simp only [TypeExpr.bare, pointer.injEq] at same
      obtain ⟨args', loc', found, equal⟩ := ih same.1
      exact ⟨args', loc', .elem found, equal⟩
    | _ => cases same
  | arg member below ih =>
    cases other with
    | applied name' args' loc' =>
      simp only [TypeExpr.bare, applied.injEq, bareAll_eq_map] at same
      have image := List.mem_map_of_mem (f := TypeExpr.bare) member
      rw [same.2.1] at image
      obtain ⟨arg', member', same'⟩ := List.mem_map.mp image
      obtain ⟨args'', loc'', found, equal⟩ := ih same'.symm
      exact ⟨args'', loc'', .arg member' found, equal⟩
    | _ => cases same

theorem mem_uses {index : Index} {site : Span} {use : Use} {type : TypeExpr} :
    use ∈ type.uses index site ↔ use.kind = .struct ∧ use.site = site ∧ (index.struct? use.name).isSome ∧
      ∃ loc, (applied use.name use.args loc).Within type := by
  induction type using TypeExpr.byParts with
  | absent | named name loc =>
    constructor
    · intro member
      cases member
    · rintro ⟨-, -, -, loc, ⟨⟩⟩
  | pointer elem loc ih =>
    rw [uses, ih]
    constructor
    · rintro ⟨kind, same, declared, loc, within⟩
      exact ⟨kind, same, declared, loc, .elem within⟩
    · rintro ⟨kind, same, declared, loc, within⟩
      cases within with
      | elem below => exact ⟨kind, same, declared, loc, below⟩
  | applied name args loc ih =>
    rw [uses, usesOfAll_eq, List.mem_append, List.mem_flatMap]
    constructor
    · rintro (⟨arg, member, inside⟩ | own)
      · obtain ⟨kind, same, declared, loc, within⟩ := (ih arg member).mp inside
        exact ⟨kind, same, declared, loc, .arg member within⟩
      · split at own
        next declared =>
          obtain rfl := List.mem_singleton.mp own
          exact ⟨rfl, rfl, declared, loc, .here⟩
        next => cases own
    · rintro ⟨kind, same, declared, loc, within⟩
      obtain ⟨useKind, useName, useArgs, useSite⟩ := use
      cases within with
      | here =>
        dsimp only at kind same declared ⊢
        subst kind same
        exact .inr (by rw [if_pos declared]; exact List.mem_singleton_self _)
      | arg member below => exact .inl ⟨_, member, (ih _ member).mpr ⟨kind, same, declared, loc, below⟩⟩

end TypeExpr
end GenericC
