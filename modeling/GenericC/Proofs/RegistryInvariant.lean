import GenericC.Generics.Registry
import Mathlib.Data.List.Nodup

/-! A registry keeps three views of its instantiations: the list, the places of keys and the places of
C names. C names are not unique to instantiations, so a registration may be refused. Whatever is
registered in whatever order, the views stay in step and a refused registration changes nothing. -/

namespace GenericC

variable {α : Type} {inst : Instantiation}

private theorem nodup_snoc {items : List α} {item : α} (distinct : items.Nodup) (fresh : item ∉ items) :
    (items ++ [item]).Nodup := List.concat_eq_append ▸ distinct.concat fresh

private theorem forall_snoc {holds : α → Prop} {items : List α} {item : α} (all : ∀ item ∈ items, holds item)
    (last : holds item) : ∀ other ∈ items ++ [item], holds other :=
  List.forall_mem_append.mpr ⟨all, List.forall_mem_singleton.mpr last⟩

namespace Instantiation

/-- Every recorded use has a place, and none is recorded twice. -/
def SitesSound (inst : Instantiation) : Prop :=
  inst.useSites.Nodup ∧ ∀ site ∈ inst.useSites, site.span ≠ Span.nowhere

theorem SitesSound.addSite (sound : inst.SitesSound) (site : UseSite) : (inst.addSite site).SitesSound := by
  unfold Instantiation.addSite
  split
  · exact sound
  next fresh =>
    simp only [Bool.or_eq_true, decide_eq_true_eq, List.contains_iff_mem, not_or] at fresh
    exact ⟨nodup_snoc sound.1 fresh.2, forall_snoc sound.2 fresh.1⟩

end Instantiation

namespace Registry

variable {name : Text} {entries : List Instantiation} {new : Instantiation}

def keys (registry : Registry) : List InstKey := registry.entries.map (·.key)

def names (registry : Registry) : List Text := registry.entries.map (·.mangled)

/-- The views of a registry are in step. -/
structure Valid (registry : Registry) : Prop where
  distinctKeys : registry.keys.Nodup
  distinctNames : registry.names.Nodup
  byKey : registry.byKey = registry.keys.zipIdx
  byMangled : registry.byMangled = registry.names.zipIdx
  key : ∀ inst ∈ registry.entries, inst.key = registry.keyOf inst.genericName inst.typeArgs
  kind : ∀ inst ∈ registry.entries, inst.kind = registry.kind
  mangled : ∀ inst ∈ registry.entries, inst.mangled = mangle inst.genericName inst.typeArgs
  sites : ∀ inst ∈ registry.entries, inst.SitesSound

theorem valid_fresh (kind : InstKind) : Valid { kind } := by
  constructor <;> simp [keys, names]

private theorem lookup_zipIdx [BEq α] [LawfulBEq α] (items : List α) (first : Nat) (item : α) :
    (items.zipIdx first).lookup item = (items.idxOf? item).map (· + first) := by
  induction items generalizing first with
  | nil => rfl
  | cons head rest ih =>
    rw [List.zipIdx_cons, List.lookup_cons, List.idxOf?_cons, ih]
    by_cases same : item = head
    · simp [same]
    · have other : (head == item) = false := by simpa using fun equal : head = item => same equal.symm
      have apart : (item == head) = false := by simpa using same
      simp only [apart, other, Option.map_map, Bool.false_eq_true, ↓reduceIte]
      congr 1
      funext place
      simp only [Function.comp_apply]
      omega

theorem lookup_places [BEq α] [LawfulBEq α] {items : List α} (distinct : items.Nodup) (item : α) (place : Nat) :
    items.zipIdx.lookup item = some place ↔ items[place]? = some item := by
  rw [lookup_zipIdx]
  simp only [Nat.add_zero, Option.map_id']
  rw [List.idxOf?_eq_some_iff, List.getElem?_eq_some_iff]
  constructor
  · intro ⟨inside, same, _⟩
    exact ⟨inside, same⟩
  · intro ⟨inside, same⟩
    refine ⟨inside, same, ?_⟩
    intro other earlier equal
    have : other = place := (distinct.getElem_inj_iff).mp (equal.trans same.symm)
    omega

theorem lookup_item {β : Type} [BEq β] [LawfulBEq β] {items : List α} {view : α → β} (distinct : (items.map view).Nodup)
    {seen : β} {item : α} :
    ((items.map view).zipIdx.lookup seen).bind (items[·]?) = some item ↔ item ∈ items ∧ view item = seen := by
  rw [Option.bind_eq_some_iff]
  constructor
  · intro ⟨place, found, entry⟩
    rw [lookup_places distinct, List.getElem?_map, entry] at found
    exact ⟨List.mem_of_getElem? entry, Option.some.inj found⟩
  · intro ⟨member, same⟩
    obtain ⟨place, entry⟩ := List.mem_iff_getElem?.mp member
    refine ⟨place, ?_, entry⟩
    rw [lookup_places distinct, List.getElem?_map, entry, Option.map_some, same]

theorem lookup_item_eq_none {β : Type} [BEq β] [LawfulBEq β] {items : List α} {view : α → β}
    (distinct : (items.map view).Nodup) {seen : β} :
    ((items.map view).zipIdx.lookup seen).bind (items[·]?) = none ↔ seen ∉ items.map view := by
  rw [Option.eq_none_iff_forall_ne_some, List.mem_map]
  constructor
  · intro missing ⟨item, found⟩
    exact missing item ((lookup_item distinct).mpr found)
  · intro missing item found
    exact missing ⟨item, (lookup_item distinct).mp found⟩

variable {registry : Registry} (valid : registry.Valid)
include valid

theorem Valid.findKey?_eq_some {key : InstKey} :
    registry.findKey? key = some inst ↔ inst ∈ registry.entries ∧ inst.key = key := by
  rw [findKey?, valid.byKey]
  exact lookup_item valid.distinctKeys

theorem Valid.findMangled?_eq_some :
    registry.findMangled? name = some inst ↔ inst ∈ registry.entries ∧ inst.mangled = name := by
  rw [findMangled?, valid.byMangled]
  exact lookup_item valid.distinctNames

theorem Valid.findKey?_eq_none {key : InstKey} : registry.findKey? key = none ↔ key ∉ registry.keys := by
  rw [findKey?, valid.byKey]
  exact lookup_item_eq_none valid.distinctKeys

theorem Valid.findMangled?_eq_none : registry.findMangled? name = none ↔ name ∉ registry.names := by
  rw [findMangled?, valid.byMangled]
  exact lookup_item_eq_none valid.distinctNames

omit valid

private theorem forall_set {P : Instantiation → Prop} {place : Nat} (all : ∀ inst ∈ entries, P inst) (holds : P new) :
    ∀ inst ∈ entries.set place new, P inst := by
  intro inst member
  rcases List.mem_or_eq_of_mem_set member with member | rfl
  · exact all inst member
  · exact holds

theorem Valid.existing {place : Nat} (valid : registry.Valid) (entry : registry.entries[place]? = some inst)
    (site : UseSite) : Valid { registry with entries := registry.entries.set place (inst.addSite site) } := by
  have member : inst ∈ registry.entries := List.mem_of_getElem? entry
  have keys : (registry.entries.set place (inst.addSite site)).map (·.key) = registry.keys :=
    map_set _ entry (by simp)
  have names : (registry.entries.set place (inst.addSite site)).map (·.mangled) = registry.names :=
    map_set _ entry (by simp)
  constructor
  · exact Eq.subst (motive := List.Nodup) keys.symm valid.distinctKeys
  · exact Eq.subst (motive := List.Nodup) names.symm valid.distinctNames
  · exact valid.byKey.trans (congrArg List.zipIdx keys.symm)
  · exact valid.byMangled.trans (congrArg List.zipIdx names.symm)
  · exact forall_set valid.key (by simpa [keyOf] using valid.key inst member)
  · exact forall_set valid.kind (by simpa using valid.kind inst member)
  · exact forall_set valid.mangled (by simpa using valid.mangled inst member)
  · exact forall_set valid.sites ((valid.sites inst member).addSite site)

theorem created_sites (registry : Registry) (name : Text) (args : List TypeExpr) (site : UseSite) (origin : Origin) :
    (registry.created name args site origin).SitesSound :=
  Instantiation.SitesSound.addSite ⟨List.nodup_nil, by simp⟩ site

theorem Valid.created {args : List TypeExpr} {site : UseSite} {origin : Origin} (valid : registry.Valid)
    (newKey : registry.keyOf name args ∉ registry.keys) (newName : mangle name args ∉ registry.names) :
    Valid { registry with
      entries := registry.entries ++ [registry.created name args site origin]
      byKey := registry.byKey ++ [(registry.keyOf name args, registry.size)]
      byMangled := registry.byMangled ++ [(mangle name args, registry.size)] } := by
  have keys : (registry.entries ++ [registry.created name args site origin]).map (·.key) =
      registry.keys ++ [registry.keyOf name args] := by simp [Registry.keys, Registry.created]
  have names : (registry.entries ++ [registry.created name args site origin]).map (·.mangled) =
      registry.names ++ [mangle name args] := by simp [Registry.names, Registry.created]
  constructor
  · exact Eq.subst (motive := List.Nodup) keys.symm (nodup_snoc valid.distinctKeys newKey)
  · exact Eq.subst (motive := List.Nodup) names.symm (nodup_snoc valid.distinctNames newName)
  · rw [Registry.keys, keys, List.zipIdx_append, ← valid.byKey]
    simp [Registry.keys, size]
  · rw [Registry.names, names, List.zipIdx_append, ← valid.byMangled]
    simp [Registry.names, size]
  · exact forall_snoc valid.key (by simp [Registry.created, keyOf])
  · exact forall_snoc valid.kind (by simp [Registry.created])
  · exact forall_snoc valid.mangled (by simp [Registry.created])
  · exact forall_snoc valid.sites (created_sites registry name args site origin)

theorem register_valid (valid : registry.Valid) (name : Text) (args : List TypeExpr) (site : UseSite)
    (origin : Origin) : (registry.register name args site origin).1.Valid := by
  have step := register_cases registry name args site origin
  generalize registry.register name args site origin = outcome at step ⊢
  cases step with
  | existing found entry => exact valid.existing entry site
  | collision missing owned => exact valid
  | created missing unowned =>
    exact valid.created (valid.findKey?_eq_none.mp missing) (valid.findMangled?_eq_none.mp unowned)

theorem register_keys (registry : Registry) (name : Text) (args : List TypeExpr) (site : UseSite) (origin : Origin) :
    registry.keys <+: (registry.register name args site origin).1.keys := by
  have step := register_cases registry name args site origin
  generalize registry.register name args site origin = outcome at step ⊢
  cases step with
  | existing found entry => exact ⟨[], by simp [keys, map_set (·.key) entry]⟩
  | collision missing owned => exact List.prefix_refl _
  | created missing unowned =>
    simp only [keys, List.map_append]
    exact List.prefix_append _ _

theorem collisionReport_shape (registry : Registry) (name : Text) (args : List TypeExpr) (site : UseSite)
    (owner : Instantiation) : (registry.collisionReport name args site owner).code = .mangleCollision ∧
      (registry.collisionReport name args site owner).severity = .error := by
  unfold collisionReport
  dsimp only
  split <;> exact ⟨rfl, rfl⟩

theorem register_collision {args : List TypeExpr} {site : UseSite} {origin : Origin} {report : Diagnostic}
    (refused : (registry.register name args site origin).2 = .collision report) :
    registry.register name args site origin = (registry, .collision report) ∧ report.code = .mangleCollision ∧
      report.severity = .error := by
  have step := register_cases registry name args site origin
  generalize registry.register name args site origin = outcome at refused step ⊢
  cases step with
  | existing found entry => cases refused
  | collision missing owned =>
    cases refused
    exact ⟨rfl, collisionReport_shape ..⟩
  | created missing unowned => cases refused

structure Call where
  name : Text
  args : List TypeExpr
  site : UseSite
  origin : Origin := {}

def call (registry : Registry) (call : Call) : Registry × Registration :=
  registry.register call.name call.args call.site call.origin

def afterCalls (registry : Registry) (calls : List Call) : Registry :=
  calls.foldl (fun registry call => (registry.call call).1) registry

theorem afterCalls_valid (valid : registry.Valid) (calls : List Call) : (registry.afterCalls calls).Valid := by
  induction calls generalizing registry with
  | nil => exact valid
  | cons call rest ih => exact ih (register_valid valid call.name call.args call.site call.origin)

/-- After any requests, one more request leaves the views in step and all keys where they were. One that is
refused because of its C name gives no instantiation and leaves the registry as it was. -/
theorem fresh_calls_in_step (kind : InstKind) (calls : List Call) (next : Call) :
    let before := afterCalls { kind } calls
    let (after, result) := before.call next
    before.Valid ∧ after.Valid ∧ before.keys <+: after.keys ∧
      ∀ report, result = .collision report →
        report.code = .mangleCollision ∧ result.inst? = none ∧ after = before := by
  intro before
  have valid : before.Valid := afterCalls_valid (valid_fresh kind) calls
  refine ⟨valid, register_valid valid .., register_keys .., ?_⟩
  intro report refused
  obtain ⟨same, code, -⟩ := register_collision refused
  refine ⟨code, ?_, congrArg Prod.fst same⟩
  rw [refused]
  rfl

end Registry
end GenericC
