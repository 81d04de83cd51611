import GenericC.Text.Utf8
import GenericC.TypeExpr

/-! The C names of instantiations: the name of the generic and its type arguments, joined by
underscores. Different instantiations may come to the same name. -/

namespace GenericC

def identPart (name : Text) : Text := Text.joinWith "_" name.words

mutual
def TypeExpr.mangled : TypeExpr → Text
  | .absent => []
  | .named name _ => identPart name
  | .pointer elem _ => elem.mangled ++ Text.ofString "_ptr"
  | .applied name args _ => identPart name ++ TypeExpr.mangledArgs args

def TypeExpr.mangledArgs : List TypeExpr → Text
  | [] => []
  | first :: rest => Text.byte '_' :: first.mangled ++ TypeExpr.mangledArgs rest
end

def mangle (name : Text) (args : List TypeExpr) : Text := name ++ TypeExpr.mangledArgs args

end GenericC
