import GenericC.Program.Node
import GenericC.Generics.Subst

/-! What a program declares under a name. -/

namespace GenericC

/-- A struct counts as defined once it has fields, a function once it has a body. Of several generic
declarations of a name the first definition counts, and without one the last declaration. -/
structure Index where
  structs : List StructDecl := []
  funcs : List FuncDecl := []
  /-- The names of structs, unions and typedefs that are not generic. -/
  plain : List Text := []
deriving Repr

namespace Index

def ofProgram (program : Program) : Index where
  structs := program.decls.filterMap fun
    | .struct decl => if decl.isGeneric then some decl else none
    | _ => none
  funcs := program.decls.filterMap fun
    | .function decl => if decl.isGeneric then some decl else none
    | _ => none
  plain := program.decls.flatMap fun
    | .struct decl => if decl.isGeneric then [] else [decl.name]
    | .typedef decl =>
      decl.name :: match decl.target with
        | .body struct => if struct.name.isEmpty then [] else [struct.name]
        | .type _ => []
    | _ => []

def struct? (index : Index) (name : Text) : Option StructDecl :=
  let named := index.structs.filter (·.name = name)
  (named.find? (·.fields.isSome)).or named.getLast?

def func? (index : Index) (name : Text) : Option FuncDecl :=
  let named := index.funcs.filter (·.name = name)
  (named.find? (·.body.isSome)).or named.getLast?

end Index

def Decl.isGeneric : Decl → Bool
  | struct decl => decl.isGeneric
  | function decl => decl.isGeneric
  | _ => false

/-- The name under which the uses of generics in a declaration are recorded. -/
def Decl.name : Decl → Text
  | struct decl => decl.name
  | function decl => decl.name
  | typedef decl => decl.name
  | vars decl => (decl.vars.head?.map (·.name)).getD []
  | _ => []

end GenericC
