import GenericC.Diagnostic.Bag
import GenericC.Emit.Printer
import GenericC.Emit.StructOrder
import GenericC.Generics.Expansion
import GenericC.Path

/-! The C file of a program and its header: preprocessor lines first, then the specialized structs and
functions, and last the declarations that are not generic, in the order of the source. -/

namespace GenericC

structure EmitSettings where
  /-- The first line of every file; an empty one stands for the usual line. -/
  comment : Text := []
  noComment : Bool := false
deriving DecidableEq, Repr

def defaultComment : Text := "/* Generated by SafeC compiler */"

structure Emission where
  text : Text := []
  reports : List Diagnostic := []
  structs : Nat := 0
  funcs : Nat := 0
deriving Repr

/-- A part of a file, with what there is to report about it. -/
structure Piece where
  text : Text := []
  reports : List Diagnostic := []

structure Emitter where
  program : Program
  insts : Instantiations
  settings : EmitSettings

namespace Emitter

def index (emitter : Emitter) : Index := Index.ofProgram emitter.program

/-- The C names that belong to a struct and to a function. -/
def tagged (emitter : Emitter) : List Text :=
  (emitter.insts.structs.entries.map (·.mangled)).filter
    fun name => (emitter.insts.funcs.findMangled? name).isSome

def printer (emitter : Emitter) : Printer := { index := emitter.index, tagged := emitter.tagged }

def preamble (settings : EmitSettings) : Text :=
  if settings.noComment then []
  else Text.concat [if settings.comment.isEmpty then defaultComment else settings.comment, "\n\n"]

def paragraph (text : Text) : Text := if text.isEmpty then [] else Text.concat [text, "\n"]

def directiveLines (program : Program) : List Text :=
  program.decls.filterMap fun
    | .inclusion _ line _ => some line
    | .directive line _ => some line
    | _ => none

def directives (program : Program) : Text :=
  paragraph ((directiveLines program).flatMap fun line => Text.concat [line, "\n"])

def danglingReport (inst : Instantiation) : Diagnostic :=
  .ofWarning .danglingInstantiation inst.firstSite
    (Text.concat ["no generic ", inst.kind.name, " named ", inst.genericName, "; ", inst.mangled, " is not emitted"])

def arityReport (inst : Instantiation) (error : ArityError) : Diagnostic :=
  .ofError .arityMismatch inst.firstSite
    (Text.concat [inst.render, ": ", error.message, "; ", inst.mangled, " is not emitted"])

/-- The definition of a specialized struct; nothing for one that is only declared. -/
def structPiece (printer : Printer) (inst : Instantiation) : Option Piece :=
  match printer.index.struct? inst.genericName with
  | none => none
  | some decl =>
    match decl.fields with
    | none => none
    | some fields =>
      match Subst.arityError? decl.typeParams inst.typeArgs with
      | some error => some { reports := [arityReport inst error] }
      | none =>
        let printer := printer.withSubst (Subst.ofParams decl.typeParams inst.typeArgs)
        some {
          text := Text.concat [decl.keyword, " ", inst.mangled, " ", printer.fields fields, ";\n\n"]
          reports := printer.problems decl.toNode }

def typedefLine (printer : Printer) (inst : Instantiation) : Text :=
  if printer.tagged.contains inst.mangled then []
  else
    let keyword := ((printer.index.struct? inst.genericName).map (·.keyword)).getD []
    Text.concat ["typedef ", keyword, " ", inst.mangled, " ", inst.mangled, ";\n"]

def structs (emitter : Emitter) : Emission :=
  let printer := emitter.printer
  let order := StructOrder.ofRegistry printer.index emitter.insts.structs
  let placed := order.placed.reverse
  let pieces := placed.filterMap (structPiece printer)
  { text := Text.concat [paragraph (placed.flatMap (typedefLine printer)), pieces.flatMap (·.text)]
    reports := order.dangling.reverse.map danglingReport ++ pieces.flatMap (·.reports)
    structs := (pieces.filter (!·.text.isEmpty)).length }

structure Specialized where
  inst : Instantiation
  decl : FuncDecl

def specialized (index : Index) (inst : Instantiation) : Except Diagnostic Specialized :=
  match index.func? inst.genericName with
  | none => .error (danglingReport inst)
  | some decl =>
    match Subst.arityError? decl.typeParams inst.typeArgs with
    | some error => .error (arityReport inst error)
    | none => .ok ⟨inst, decl⟩

namespace Specialized

def printer (printer : Printer) (func : Specialized) : Printer :=
  printer.withSubst (Subst.ofParams func.decl.typeParams func.inst.typeArgs)

def prototype (printer : Printer) (func : Specialized) : Piece :=
  let printer := func.printer printer
  { text := Text.concat [printer.signature func.decl func.inst.mangled, ";\n"]
    reports := printer.problems { func.decl with body := none }.toNode }

def definition? (printer : Printer) (func : Specialized) : Option Piece :=
  let printer := func.printer printer
  func.decl.body.map fun body =>
    { text := printer.function func.decl func.inst.mangled body
      reports := printer.problems func.decl.toNode }

end Specialized

/-- All specialized functions: a prototype for each and, if wanted, their definitions. Without definitions
static functions are left out. -/
def funcs (emitter : Emitter) (bodies : Bool) : Emission :=
  let printer := emitter.printer
  let found := emitter.insts.funcs.latestFirst.map (specialized printer.index)
  let funcs := (found.filterMap Except.toOption).filter fun func => bodies || !func.decl.storage.isStatic
  let problems := found.filterMap fun
    | .error problem => some problem
    | .ok _ => none
  let prototypes := funcs.map (Specialized.prototype printer)
  let definitions := if bodies then funcs.filterMap (Specialized.definition? printer) else []
  { text := Text.concat [paragraph (prototypes.flatMap (·.text)), definitions.flatMap (·.text)]
    reports := problems ++ prototypes.flatMap (·.reports) ++ definitions.flatMap (·.reports)
    funcs := definitions.length }

/-- A declaration of a C file; generic ones and preprocessor lines are written elsewhere. -/
def declText (printer : Printer) : Decl → Text
  | .struct decl => if decl.isGeneric then [] else printer.struct decl
  | .function decl =>
    if decl.isGeneric then []
    else match decl.body with
      | none => Text.concat [printer.signature decl decl.name, ";\n"]
      | some body => printer.function decl decl.name body
  | .vars decl => Text.concat [printer.vars decl, ";\n"]
  | .typedef decl => printer.typedef decl
  | .enum decl => printer.enum decl
  | .inclusion _ _ _ => []
  | .directive _ _ => []

def declPiece (printer : Printer) (decl : Decl) : Piece :=
  if decl.isGeneric then {} else { text := declText printer decl, reports := printer.problems decl.toNode }

def plain (emitter : Emitter) : List Piece := emitter.program.decls.map (declPiece emitter.printer)

def isTypeDecl : Decl → Bool
  | .struct _ => true
  | .typedef _ => true
  | .enum _ => true
  | _ => false

def typeDecls (emitter : Emitter) : List Piece :=
  (emitter.program.decls.filter isTypeDecl).map (declPiece emitter.printer)

def prototype? (printer : Printer) : Decl → Option Piece
  | .function decl =>
    if decl.isGeneric || decl.storage.isStatic then none
    else some {
      text := Text.concat [printer.signature decl decl.name, ";\n"]
      reports := printer.problems { decl with body := none }.toNode }
  | _ => none

def extern? (printer : Printer) : Decl → Option Piece
  | .vars decl =>
    if decl.storage.isStatic then none
    else
      let decl : VarDecl :=
        { decl with storage := { isExtern := true }, vars := decl.vars.map ({ · with init := none }) }
      some { text := Text.concat [printer.vars decl, ";\n"], reports := printer.problems decl.toNode }
  | _ => none

def declared (emitter : Emitter) (piece? : Printer → Decl → Option Piece) : Piece :=
  let pieces := emitter.program.decls.filterMap (piece? emitter.printer)
  { text := paragraph (pieces.flatMap (·.text)), reports := pieces.flatMap (·.reports) }

def emit (emitter : Emitter) : Emission :=
  let structs := emitter.structs
  let funcs := emitter.funcs true
  let plain := emitter.plain
  { text := Text.concat [preamble emitter.settings, directives emitter.program, structs.text, funcs.text,
      plain.flatMap (·.text)]
    reports := Bag.firstOfEach [] (structs.reports ++ funcs.reports ++ plain.flatMap (·.reports))
    structs := structs.structs
    funcs := funcs.funcs }

def emitHeader (emitter : Emitter) (guard : Text) : Emission :=
  let name : Text := guard ++ Text.ofString "_H"
  let structs := emitter.structs
  let types := emitter.typeDecls
  let funcs := emitter.funcs false
  let prototypes := emitter.declared prototype?
  let externs := emitter.declared extern?
  { text := Text.concat [preamble emitter.settings, "#ifndef ", name, "\n#define ", name, "\n\n",
      directives emitter.program, structs.text, types.flatMap (·.text), funcs.text, prototypes.text, externs.text,
      "#endif /* ", name, " */\n"]
    reports := Bag.firstOfEach [] (structs.reports ++ types.flatMap (·.reports) ++ funcs.reports ++
      prototypes.reports ++ externs.reports) }

end Emitter

/-- The name of an include guard for a path: the last part without its suffix, in capitals, with an underscore
for every byte that is no letter and no digit. -/
def guardName (path : Text) : Text :=
  let file : Text := Path.baseName path
  let file : Text := file.drop (file.afterLast (· = Text.byte '\\'))
  let stem : Text := file.dropEnd (Path.suffix file)
  if stem.isEmpty then "SAFEC_OUTPUT"
  else stem.map fun b =>
    if Text.isLower b then b - 32
    else if Text.isUpper b || Text.isDigit b then b
    else Text.byte '_'

end GenericC
