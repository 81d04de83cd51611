import GenericC.Generics.Uses

/-! The order in which specialized structs are defined. C needs the definition of a struct before another
one embeds it, so a struct follows those that its fields hold by value; otherwise the latest comes
first. -/

namespace GenericC

structure StructOrder where
  seen : List InstKey := []
  /-- The structs in the order of their definitions, last first. -/
  placed : List Instantiation := []
  /-- Those without a declaration, last first. -/
  dangling : List Instantiation := []
deriving Repr

namespace StructOrder

/-- The instantiation that a field of a type holds by value. -/
def embedded? (structs : Registry) : TypeExpr → Option Instantiation
  | .applied name args _ => structs.find? name args
  | _ => none

def members (index : Index) (structs : Registry) (inst : Instantiation) : List Instantiation :=
  match index.struct? inst.genericName with
  | none => []
  | some decl =>
    if decl.typeParams.length = inst.typeArgs.length then
      let subst := Subst.ofParams decl.typeParams inst.typeArgs
      decl.fieldList.filterMap fun field => embedded? structs (subst.type field.type)
    else []

/-- Places a struct behind what it embeds. Each nested step has seen one more entry, so `steps` need not
exceed their number. -/
def place (index : Index) (structs : Registry) : (steps : Nat) → StructOrder → Instantiation → StructOrder
  | 0, order, _ => order
  | steps + 1, order, inst =>
    if order.seen.contains inst.key then order
    else
      let order := { order with seen := inst.key :: order.seen }
      if (index.struct? inst.genericName).isNone then { order with dangling := inst :: order.dangling }
      else
        let order := (members index structs inst).foldl (place index structs steps) order
        { order with placed := inst :: order.placed }

def ofRegistry (index : Index) (structs : Registry) : StructOrder :=
  structs.latestFirst.foldl (place index structs structs.size) {}

end StructOrder
end GenericC
