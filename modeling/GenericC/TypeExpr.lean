import GenericC.Source.Span

/-! Type expressions as they are written in a source: a name, a generic name with type
arguments, or a pointer. Two notions of text belong to them: how a type is shown to people, and
the key under which equal types are found. -/

namespace GenericC

/-- A type expression and where it was written. `absent` stands where no type is given at all. -/
inductive TypeExpr
  | absent
  | named (name : Text) (loc : Span)
  | applied (name : Text) (args : List TypeExpr) (loc : Span)
  | pointer (elem : TypeExpr) (loc : Span)
deriving Repr, Inhabited

namespace TypeExpr

def span : TypeExpr → Span
  | absent => Span.nowhere
  | named _ loc => loc
  | applied _ _ loc => loc
  | pointer _ loc => loc

/-- A name with arguments; without any it is a plain name. -/
def apply (name : Text) (args : List TypeExpr) : TypeExpr :=
  if args.isEmpty then named name Span.nowhere else applied name args Span.nowhere

def pointers : Nat → TypeExpr → TypeExpr
  | 0, type => type
  | depth + 1, type => pointers depth (pointer type Span.nowhere)

def base : TypeExpr → TypeExpr
  | pointer elem _ => elem.base
  | type => type

def pointerDepth : TypeExpr → Nat
  | pointer elem _ => elem.pointerDepth + 1
  | _ => 0

def baseName (type : TypeExpr) : Text :=
  match type.base with
  | named name _ => name
  | applied name _ _ => name
  | _ => []

def typeArgs (type : TypeExpr) : List TypeExpr :=
  match type.base with
  | applied _ args _ => args
  | _ => []

mutual
def same : TypeExpr → TypeExpr → Bool
  | absent, absent => true
  | named a _, named b _ => a = b
  | pointer a _, pointer b _ => same a b
  | applied a as _, applied b bs _ => a = b && sameLists as bs
  | _, _ => false

def sameLists : List TypeExpr → List TypeExpr → Bool
  | [], [] => true
  | a :: as, b :: bs => same a b && sameLists as bs
  | _, _ => false
end

mutual
/-- The text of a type with `separator` between type arguments. -/
def write (separator : Text) : TypeExpr → Text
  | absent => "<nil>"
  | named name _ => name
  | pointer elem _ => write separator elem ++ [Text.byte '*']
  | applied name args _ => Text.concat [name, "<", writeList separator args, ">"]

def writeList (separator : Text) : List TypeExpr → Text
  | [] => []
  | [type] => write separator type
  | type :: next :: rest => Text.concat [write separator type, separator, writeList separator (next :: rest)]
end

def render (type : TypeExpr) : Text := write ", " type

/-- Types that may be written in a source have the same key exactly when they are the same. -/
def key (type : TypeExpr) : Text := write "," type

def listKey (types : List TypeExpr) : Text := Text.joinWith ";" (types.map key)

def renderArgs (types : List TypeExpr) : Text := Text.joinWith ", " (types.map render)

end TypeExpr
end GenericC
