import GenericC.Program.Decl

/-! Substitutions of types for type parameters. -/

namespace GenericC

structure ArityError where
  name : Text := []
  params : Nat
  args : Nat
deriving DecidableEq, Repr

def ArityError.message (error : ArityError) : Text :=
  if error.name.isEmpty then
    Text.concat ["expected ", Text.ofNat error.params, " type argument(s), got ", Text.ofNat error.args]
  else
    Text.concat [error.name, " expects ", Text.ofNat error.params, " type argument(s), got ",
      Text.ofNat error.args]

/-- Types for type parameters. Of several bindings of a name the first one counts. -/
structure Subst where
  bindings : List (Text × TypeExpr) := []
deriving Repr

namespace Subst

/-- Binds parameters to arguments in order, as far as both lists go. -/
def ofParams (params : List TypeParam) (args : List TypeExpr) : Subst := ⟨(params.map (·.name)).zip args⟩

def arityError? (params : List TypeParam) (args : List TypeExpr) : Option ArityError :=
  if params.length = args.length then none else some { params := params.length, args := args.length }

def size (subst : Subst) : Nat := subst.bindings.length

def find? (subst : Subst) (name : Text) : Option TypeExpr := subst.bindings.lookup name

mutual
/-- The type with its bound names replaced, or `none` when no bound name occurs in it. A bound name that is
applied to arguments is replaced together with them. -/
def change? (subst : Subst) : TypeExpr → Option TypeExpr
  | .absent => none
  | .named name _ => subst.find? name
  | .pointer elem loc => (change? subst elem).map (.pointer · loc)
  | .applied name args loc =>
    match subst.find? name with
    | some bound => some bound
    | none => (changeList? subst args).map (.applied name · loc)

def changeList? (subst : Subst) : List TypeExpr → Option (List TypeExpr)
  | [] => none
  | first :: rest =>
    match change? subst first, changeList? subst rest with
    | none, none => none
    | some changed, none => some (changed :: rest)
    | none, some changed => some (first :: changed)
    | some first, some rest => some (first :: rest)
end

/-- The type with every bound name replaced. Stars around a bound name are added to those of its binding. -/
def type (subst : Subst) (type : TypeExpr) : TypeExpr := (subst.change? type).getD type

def types (subst : Subst) (types : List TypeExpr) : List TypeExpr := types.map subst.type

end Subst
end GenericC
