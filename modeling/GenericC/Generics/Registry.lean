import GenericC.Diagnostic
import GenericC.Generics.Mangle
import GenericC.Text.Quoted

/-! Instantiations of generics, each registered once. A registry finds them by their generic name and
type arguments, and by their C name. -/

namespace GenericC

inductive InstKind
  | struct
  | func
deriving DecidableEq, Repr

def InstKind.name : InstKind → Text
  | struct => "struct"
  | func => "func"

/-- What makes two instantiations the same. -/
structure InstKey where
  kind : InstKind
  name : Text
  argsKey : Text
deriving DecidableEq, Repr

structure UseSite where
  span : Span
  caller : Text
deriving DecidableEq, Repr

structure Instantiation where
  kind : InstKind
  genericName : Text
  typeArgs : List TypeExpr
  mangled : Text
  key : InstKey
  /-- How many instantiations lead from the text of the program to this one. -/
  depth : Nat := 0
  /-- The instantiation in whose declaration this one was found first; none in the text of the program. -/
  parent : Option InstKey := none
  useSites : List UseSite := []
deriving Repr

namespace Instantiation

def render (inst : Instantiation) : Text := (TypeExpr.apply inst.genericName inst.typeArgs).render

def addSite (inst : Instantiation) (site : UseSite) : Instantiation :=
  if site.span = Span.nowhere || inst.useSites.contains site then inst
  else { inst with useSites := inst.useSites ++ [site] }

@[simp] theorem addSite_fields (inst : Instantiation) (site : UseSite) :
    (inst.addSite site).kind = inst.kind ∧ (inst.addSite site).genericName = inst.genericName ∧
      (inst.addSite site).typeArgs = inst.typeArgs ∧ (inst.addSite site).mangled = inst.mangled ∧
      (inst.addSite site).key = inst.key ∧ (inst.addSite site).depth = inst.depth := by
  unfold addSite
  split <;> simp

def firstSite (inst : Instantiation) : Span := (inst.useSites.head?.map (·.span)).getD Span.nowhere

end Instantiation

/-- The instantiations of one kind in the order in which they were registered, with the positions of all
keys and of all C names. -/
structure Registry where
  kind : InstKind
  entries : List Instantiation := []
  byKey : List (InstKey × Nat) := []
  byMangled : List (Text × Nat) := []
deriving Repr

/-- How an instantiation that is not in the text of the program was found. -/
structure Origin where
  depth : Nat := 0
  parent : Option InstKey := none
deriving Repr

inductive Registration
  | existing (inst : Instantiation)
  | created (inst : Instantiation)
  | collision (report : Diagnostic)
deriving Repr

namespace Registration

def inst? : Registration → Option Instantiation
  | existing inst => some inst
  | created inst => some inst
  | collision _ => none

def isCreated : Registration → Bool
  | created _ => true
  | _ => false

end Registration

namespace Registry

def size (registry : Registry) : Nat := registry.entries.length

def keyOf (registry : Registry) (name : Text) (args : List TypeExpr) : InstKey :=
  ⟨registry.kind, name, TypeExpr.listKey args⟩

def findKey? (registry : Registry) (key : InstKey) : Option Instantiation :=
  (registry.byKey.lookup key).bind (registry.entries[·]?)

def find? (registry : Registry) (name : Text) (args : List TypeExpr) : Option Instantiation :=
  registry.findKey? (registry.keyOf name args)

def findMangled? (registry : Registry) (mangled : Text) : Option Instantiation :=
  (registry.byMangled.lookup mangled).bind (registry.entries[·]?)

def latestFirst (registry : Registry) : List Instantiation := registry.entries.reverse

/-- Two different instantiations with one C name. -/
def collisionReport (registry : Registry) (name : Text) (args : List TypeExpr) (site : UseSite)
    (owner : Instantiation) : Diagnostic :=
  let report := Diagnostic.ofError .mangleCollision site.span
    (Text.concat [registry.kind.name, " ", (TypeExpr.apply name args).render, " mangles to ",
      (mangle name args).quoted, ", already used by ", owner.render])
  if owner.firstSite = Span.nowhere then report
  else report.withNote owner.firstSite (Text.concat [owner.render, " requested here"])

/-- The instantiation for a generic name and type arguments, created if there is none. The use is recorded
with it. If another instantiation has the same C name, nothing changes. -/
def register (registry : Registry) (name : Text) (args : List TypeExpr) (site : UseSite)
    (origin : Origin := {}) : Registry × Registration :=
  let key := registry.keyOf name args
  let mangled := mangle name args
  match registry.findKey? key with
  | some inst =>
    let place := (registry.byKey.lookup key).getD 0
    let inst := inst.addSite site
    ({ registry with entries := registry.entries.set place inst }, .existing inst)
  | none =>
    match registry.findMangled? mangled with
    | some owner => (registry, .collision (registry.collisionReport name args site owner))
    | none =>
      let inst := Instantiation.addSite
        { kind := registry.kind, genericName := name, typeArgs := args, mangled, key
          depth := origin.depth, parent := origin.parent } site
      ({ registry with
        entries := registry.entries ++ [inst]
        byKey := registry.byKey ++ [(key, registry.size)]
        byMangled := registry.byMangled ++ [(mangled, registry.size)] }, .created inst)

def created (registry : Registry) (name : Text) (args : List TypeExpr) (site : UseSite) (origin : Origin) :
    Instantiation :=
  Instantiation.addSite
    { kind := registry.kind, genericName := name, typeArgs := args, mangled := mangle name args
      key := registry.keyOf name args, depth := origin.depth, parent := origin.parent } site

/-- The three things a registration can come to. -/
inductive Registered (registry : Registry) (name : Text) (args : List TypeExpr) (site : UseSite) (origin : Origin) :
    Registry × Registration → Prop where
  | existing {place : Nat} {inst : Instantiation}
      (known : registry.findKey? (registry.keyOf name args) = some inst) (entry : registry.entries[place]? = some inst) :
      Registered registry name args site origin
        ({ registry with entries := registry.entries.set place (inst.addSite site) }, .existing (inst.addSite site))
  | collision {owner : Instantiation}
      (missing : registry.findKey? (registry.keyOf name args) = none)
      (owned : registry.findMangled? (mangle name args) = some owner) :
      Registered registry name args site origin
        (registry, .collision (registry.collisionReport name args site owner))
  | created
      (missing : registry.findKey? (registry.keyOf name args) = none)
      (unowned : registry.findMangled? (mangle name args) = none) :
      Registered registry name args site origin
        ({ registry with
          entries := registry.entries ++ [registry.created name args site origin]
          byKey := registry.byKey ++ [(registry.keyOf name args, registry.size)]
          byMangled := registry.byMangled ++ [(mangle name args, registry.size)] },
          .created (registry.created name args site origin))

theorem register_cases (registry : Registry) (name : Text) (args : List TypeExpr) (site : UseSite) (origin : Origin) :
    Registered registry name args site origin (registry.register name args site origin) := by
  unfold register
  dsimp only
  split
  next inst found =>
    obtain ⟨place, position, entry⟩ := Option.bind_eq_some_iff.mp found
    rw [position]
    exact .existing found entry
  next missing =>
    split
    next owner owned => exact .collision missing owned
    next unowned => exact .created missing unowned

theorem map_set {α : Type} {entries : List Instantiation} {old new : Instantiation} (f : Instantiation → α) {place : Nat}
    (entry : entries[place]? = some old)
    (same : f new = f old) : (entries.set place new).map f = entries.map f := by
  obtain ⟨inside, rfl⟩ := List.getElem?_eq_some_iff.mp entry
  rw [List.map_set, same, ← List.getElem_map f (h := by simpa using inside)]
  exact List.set_getElem_self _

end Registry

/-- How repeated collisions are reported: every time, or only once. -/
inductive CollisionReports
  | every
  | once (seen : List Diagnostic.Identity)
deriving Repr

def CollisionReports.accept (policy : CollisionReports) (report : Diagnostic) :
    CollisionReports × List Diagnostic :=
  match policy with
  | every => (every, [report])
  | once seen =>
    if seen.contains report.identity then (once seen, []) else (once (report.identity :: seen), [report])

structure Instantiations where
  structs : Registry := { kind := .struct }
  funcs : Registry := { kind := .func }
  collisions : CollisionReports := .every
deriving Repr

namespace Instantiations

def size (insts : Instantiations) : Nat := insts.structs.size + insts.funcs.size

def registry (insts : Instantiations) : InstKind → Registry
  | .struct => insts.structs
  | .func => insts.funcs

def setRegistry (insts : Instantiations) (kind : InstKind) (registry : Registry) : Instantiations :=
  match kind with
  | .struct => { insts with structs := registry }
  | .func => { insts with funcs := registry }

def findKey? (insts : Instantiations) (key : InstKey) : Option Instantiation :=
  (insts.registry key.kind).findKey? key

def register (insts : Instantiations) (kind : InstKind) (name : Text) (args : List TypeExpr) (site : UseSite)
    (origin : Origin := {}) : Instantiations × Registration × List Diagnostic :=
  let (registry, result) := (insts.registry kind).register name args site origin
  let insts := insts.setRegistry kind registry
  match result with
  | .collision report =>
    let (collisions, reports) := insts.collisions.accept report
    ({ insts with collisions }, result, reports)
  | _ => (insts, result, [])

def parent? (insts : Instantiations) (inst : Instantiation) : Option Instantiation := inst.parent.bind insts.findKey?

def ancestor (insts : Instantiations) : (steps : Nat) → Instantiation → Instantiation
  | 0, inst => inst
  | steps + 1, inst =>
    match insts.parent? inst with
    | some parent => insts.ancestor steps parent
    | none => inst

/-- The instantiation at which the way from parent to parent ends; none when it goes round for ever. A way that ends
does not meet an entry twice, so it is no longer than the registries. -/
def root? (insts : Instantiations) (inst : Instantiation) : Option Instantiation :=
  let last := insts.ancestor insts.size inst
  if (insts.parent? last).isSome then none else some last

def parentName? (insts : Instantiations) (inst : Instantiation) : Option Text := (insts.parent? inst).map (·.mangled)

end Instantiations
end GenericC
