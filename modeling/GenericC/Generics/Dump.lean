import GenericC.Generics.Registry
import GenericC.Source.FileSet
import GenericC.Text.Json

/-! Lists of instantiations for people and for tools: structs first, then functions, each in the order of
their C names, with the places where they are used. -/

namespace GenericC

namespace UseSite

def precedes (a b : UseSite) : Bool :=
  if a.span.file ≠ b.span.file then a.span.file < b.span.file
  else if a.span.start ≠ b.span.start then a.span.start < b.span.start
  else a.caller.ble b.caller

def place (files : Option FileSet) (mode : Option PathMode) (site : UseSite) : Text :=
  let known := files.bind fun files =>
    if site.span = Span.nowhere then none
    else (files.displayPath? site.span.file mode).bind fun path =>
      (files.resolve? site.span).map fun (start, _) => Text.concat [path, ":", start.render]
  known.getD "_:0:0"

end UseSite

namespace Instantiations

def sorted (insts : Instantiations) : List Instantiation :=
  let byName (a b : Instantiation) : Bool := a.mangled.ble b.mangled
  insts.structs.entries.mergeSort byName ++ insts.funcs.entries.mergeSort byName

def sortedSites (inst : Instantiation) : List UseSite := inst.useSites.mergeSort UseSite.precedes

def dumpSite (files : Option FileSet) (mode : Option PathMode) (site : UseSite) : Text :=
  Text.concat ["  - at ", site.place files mode, " caller=", if site.caller.isEmpty then "_" else site.caller, "\n"]

def dumpEntry (files : Option FileSet) (mode : Option PathMode) (inst : Instantiation) : Text :=
  Text.concat [inst.kind.name, " ", inst.render, " -> ", inst.mangled, "  depth=", Text.ofNat inst.depth, " uses=",
    Text.ofNat inst.useSites.length, "\n", (sortedSites inst).flatMap (dumpSite files mode)]

def dump (insts : Instantiations) (files : Option FileSet) (mode : Option PathMode) : Text :=
  insts.sorted.flatMap (dumpEntry files mode)

def entryJson (insts : Instantiations) (files : Option FileSet) (mode : Option PathMode) (inst : Instantiation) : Json :=
  .ofGroups [
    [("kind", .string inst.kind.name), ("generic", .string inst.genericName),
      ("type_args", .array (inst.typeArgs.map fun type => .string type.render)), ("mangled", .string inst.mangled),
      ("depth", .ofNat inst.depth)],
    Json.optionalString "parent" ((insts.parentName? inst).getD []),
    [("uses", .array ((sortedSites inst).map fun site => .string (site.place files mode)))]]

def jsonDump (insts : Instantiations) (files : Option FileSet) (mode : Option PathMode) : Text :=
  (Json.array (insts.sorted.map (insts.entryJson files mode))).document

end Instantiations
end GenericC
