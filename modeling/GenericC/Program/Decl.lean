import GenericC.Program.Stmt
import GenericC.Text.Utf8

/-! Declarations and whole programs. -/

namespace GenericC

structure TypeParam where
  name : Text
  loc : Span
deriving DecidableEq, Repr

structure Field where
  type : TypeExpr
  name : Text
  dims : Dimensions := []
  loc : Span
deriving Repr

/-- A parameter of a function. A prototype may leave its name empty. -/
structure Param where
  type : TypeExpr
  name : Text := []
  dims : Dimensions := []
  loc : Span
deriving Repr

/-- A struct or union, generic when it has type parameters. A forward declaration has no fields. -/
structure StructDecl where
  isUnion : Bool
  name : Text := []
  nameLoc : Span := Span.nowhere
  typeParams : List TypeParam := []
  fields : Option (List Field) := none
  loc : Span := Span.nowhere
deriving Repr

namespace StructDecl

def isGeneric (decl : StructDecl) : Bool := !decl.typeParams.isEmpty

def keyword (decl : StructDecl) : Text := if decl.isUnion then "union" else "struct"

def tagName (decl : StructDecl) : Text := (Text.concat [decl.keyword, " ", decl.name]).trim

def fieldList (decl : StructDecl) : List Field := decl.fields.getD []

end StructDecl

/-- A function, generic when it has type parameters. A prototype has no body. -/
structure FuncDecl where
  storage : Storage
  result : TypeExpr
  name : Text
  nameLoc : Span
  typeParams : List TypeParam := []
  params : List Param := []
  variadic : Bool := false
  body : Option Block := none
  loc : Span := Span.nowhere
deriving Repr

def FuncDecl.isGeneric (decl : FuncDecl) : Bool := !decl.typeParams.isEmpty

/-- What a typedef names: a type, or a struct whose body is written in place. -/
inductive TypedefTarget
  | type (type : TypeExpr)
  | body (decl : StructDecl)
deriving Repr

def TypedefTarget.render : TypedefTarget → Text
  | type target => target.render
  | body decl => decl.tagName

structure TypedefDecl where
  target : TypedefTarget
  name : Text
  dims : Dimensions := []
  loc : Span
deriving Repr

structure EnumItem where
  name : Text
  value : Option Expr := none
  loc : Span
deriving Repr

structure EnumDecl where
  name : Text := []
  items : List EnumItem := []
  loc : Span := Span.nowhere
deriving Repr

/-- The file that an `#include` line names, in angle brackets or in quotes. -/
structure Include where
  path : Text
  system : Bool
deriving DecidableEq, Repr

def Include.ofLine? (line : Text) : Option Include :=
  let line : Text := line.trim
  let body : Text := Text.trim ((line.dropStart? "#").getD line)
  match body.dropStart? "include" with
  | none => none
  | some rest =>
    match Text.trim rest with
    | 60 :: name =>
      if name.contains 62 then some ⟨name.takeWhile (· ≠ 62), true⟩ else none
    | 34 :: name =>
      if name.contains 34 then some ⟨name.takeWhile (· ≠ 34), false⟩ else none
    | _ => none

inductive Decl
  | struct (decl : StructDecl)
  | function (decl : FuncDecl)
  | vars (decl : VarDecl)
  | typedef (decl : TypedefDecl)
  | enum (decl : EnumDecl)
  | inclusion (target : Include) (line : Text) (loc : Span)
  /-- Any other preprocessor line, kept as it is. -/
  | directive (line : Text) (loc : Span)
deriving Repr

namespace Decl

def span : Decl → Span
  | struct decl => decl.loc
  | function decl => decl.loc
  | vars decl => decl.loc
  | typedef decl => decl.loc
  | enum decl => decl.loc
  | inclusion _ _ loc => loc
  | directive _ loc => loc

def ofLine (line : Text) (loc : Span) : Decl :=
  match Include.ofLine? line with
  | some target => inclusion target line loc
  | none => directive line loc

end Decl

structure Program where
  file : UInt32 := 0
  decls : List Decl := []
deriving Repr

end GenericC
