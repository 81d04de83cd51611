import GenericC.Emit.Unit
import GenericC.Proofs.BareExpansion
import GenericC.Proofs.SpanBlindness

/-! What is written for a program does not depend on where its parts stand in the source. So two sources that differ in
blanks, line breaks and comments only are compiled to the same C. -/

namespace GenericC

def Printer.bare (printer : Printer) : Printer where
  index := printer.index.bare
  tagged := printer.tagged
  subst := printer.subst.bare

namespace Printer

variable (printer : Printer)

theorem render_bare (type : TypeExpr) : printer.bare.render type.bare = printer.render type := by
  cases type with
  | absent | named name loc => rfl
  | pointer elem loc => exact congrArg (· ++ [Text.byte '*']) (render_bare elem)
  | applied name args loc =>
    simp only [TypeExpr.bare, Printer.render, TypeExpr.mangle_bareAll]
    rw [show printer.bare.index = printer.index.bare from rfl, Index.struct?_bare]
    cases printer.index.struct? name <;> rfl

theorem sameLabel_bare (label : NodeLabel) : printer.SameLabel printer.bare label label.bare := by
  refine ⟨?_, fun _ callee callee' name name' => ?_⟩
  · show List.Forall₂ _ label.types (TypeExpr.bareAll label.types)
    rw [TypeExpr.bareAll_eq_map]
    refine forall₂_map_right (fun type => ?_) label.types
    have whole : printer.bare.subst.type type.bare = (printer.subst.type type).bare := Subst.type_bare _ type
    constructor
    · rw [Printer.type, Printer.type, whole, render_bare]
    · rw [whole, TypeExpr.base_bare, render_bare]
    · rw [whole, TypeExpr.pointerDepth_bare]
  · unfold genericCallee?
    rw [name, name', show label.bare.callee = label.callee from rfl, show printer.bare.index = printer.index.bare from rfl,
      show printer.bare.subst = printer.subst.bare from rfl, Index.func?_bare, Option.isSome_map,
      show label.bare.types = TypeExpr.bareAll label.types from rfl, Subst.types_bare, TypeExpr.mangle_bareAll,
      TypeExpr.bareAll_eq_map, List.isEmpty_map]

theorem fields_bare (fields : List Field) : printer.bare.fields (fields.map Field.bare) = printer.fields fields :=
  (fields_like (Field.likes_bare printer.sameLabel_bare fields)).symm

theorem signature_bare (decl : FuncDecl) (name : Text) : printer.bare.signature decl.bare name = printer.signature decl name :=
  (signature_like (decl.like_bare printer.sameLabel_bare) name).symm

theorem function_bare (decl : FuncDecl) (name : Text) (body : Block) :
    printer.bare.function decl.bare name body.bare = printer.function decl name body :=
  (function_like (decl.like_bare printer.sameLabel_bare) name (body.like_bare printer.sameLabel_bare)).symm

theorem vars_bare (decl : VarDecl) : printer.bare.vars decl.bare = printer.vars decl :=
  (vars_like (decl.like_bare printer.sameLabel_bare)).symm

end Printer

namespace StructOrder

def bare (order : StructOrder) : StructOrder where
  seen := order.seen
  placed := order.placed.map Instantiation.bare
  dangling := order.dangling.map Instantiation.bare

variable (index : Index) (structs : Registry)

theorem members_bare (inst : Instantiation) :
    members index.bare structs.bare inst.bare = (members index structs inst).map Instantiation.bare := by
  have embedded (type : TypeExpr) : embedded? structs.bare type.bare = (embedded? structs type).map Instantiation.bare := by
    cases type with
    | applied name args loc => exact structs.find?_bare name args
    | absent | named name loc | pointer elem loc => rfl
  unfold members
  rw [show inst.bare.genericName = inst.genericName from rfl, index.struct?_bare]
  cases index.struct? inst.genericName with
  | none => rfl
  | some decl =>
    dsimp only [Option.map_some]
    rw [show decl.bare.typeParams = decl.typeParams.map TypeParam.bare from rfl,
      show inst.bare.typeArgs = TypeExpr.bareAll inst.typeArgs from rfl, Subst.ofParams_bare, decl.fieldList_bare,
      List.filterMap_map, List.length_map, TypeExpr.bareAll_eq_map, List.length_map]
    split
    · rw [List.map_filterMap]
      congr 1
      funext field
      show embedded? structs.bare (Subst.type _ field.type.bare) = _
      rw [Subst.type_bare, embedded]
    · rfl

theorem foldl_bare {step other : StructOrder → Instantiation → StructOrder}
    (each : ∀ order inst, other order.bare inst.bare = (step order inst).bare) (insts : List Instantiation)
    (order : StructOrder) : (insts.map Instantiation.bare).foldl other order.bare = (insts.foldl step order).bare := by
  induction insts generalizing order with
  | nil => rfl
  | cons first rest ih => rw [List.map_cons, List.foldl_cons, List.foldl_cons, each, ih]

theorem place_bare (steps : Nat) (order : StructOrder) (inst : Instantiation) :
    place index.bare structs.bare steps order.bare inst.bare = (place index structs steps order inst).bare := by
  induction steps generalizing order inst with
  | zero => rfl
  | succ steps ih =>
    have within := foldl_bare ih (members index structs inst) { order with seen := inst.key :: order.seen }
    unfold place
    rw [show order.bare.seen = order.seen from rfl, show inst.bare.key = inst.key from rfl]
    split
    · rfl
    · dsimp only
      rw [show inst.bare.genericName = inst.genericName from rfl, index.struct?_bare, Option.isNone_map]
      split
      · rfl
      · rw [members_bare]
        exact congrArg (fun (order : StructOrder) => { order with placed := inst.bare :: order.placed }) within

theorem ofRegistry_bare : ofRegistry index.bare structs.bare = (ofRegistry index structs).bare := by
  unfold ofRegistry Registry.latestFirst Registry.size
  rw [show structs.bare.entries = structs.entries.map Instantiation.bare from rfl, ← List.map_reverse, List.length_map]
  exact foldl_bare (place_bare index structs structs.entries.length) structs.entries.reverse {}

end StructOrder

namespace Emitter

def bare (emitter : Emitter) : Emitter where
  program := emitter.program.bare
  insts := emitter.insts.bare
  settings := emitter.settings

variable (emitter : Emitter)

theorem printer_bare : emitter.bare.printer = emitter.printer.bare := by
  have tagged : emitter.bare.tagged = emitter.tagged := by
    unfold tagged
    show ((emitter.insts.structs.entries.map Instantiation.bare).map (·.mangled)).filter
      (fun name => (emitter.insts.funcs.bare.findMangled? name).isSome) = _
    rw [List.map_map]
    simp only [Registry.findMangled?_bare, Option.isSome_map]
    rfl
  unfold Emitter.printer index
  rw [tagged, show emitter.bare.program = emitter.program.bare from rfl, Index.ofProgram_bare]
  rfl

variable {printer : Printer}

theorem withSubst_bare (params : List TypeParam) (args : List TypeExpr) :
    printer.bare.withSubst (.ofParams (params.map TypeParam.bare) (TypeExpr.bareAll args)) =
      (printer.withSubst (.ofParams params args)).bare := by
  rw [Subst.ofParams_bare]
  rfl

theorem structPiece_bare (inst : Instantiation) :
    (structPiece printer.bare inst.bare).map (·.text) = (structPiece printer inst).map (·.text) := by
  unfold structPiece
  rw [show printer.bare.index = printer.index.bare from rfl, show inst.bare.genericName = inst.genericName from rfl,
    Index.struct?_bare]
  cases printer.index.struct? inst.genericName with
  | none => rfl
  | some decl =>
    dsimp only [Option.map_some]
    rw [show decl.bare.fields = decl.fields.map (·.map Field.bare) from rfl]
    cases decl.fields with
    | none => rfl
    | some fields =>
      dsimp only [Option.map_some]
      rw [show decl.bare.typeParams = decl.typeParams.map TypeParam.bare from rfl,
        show inst.bare.typeArgs = TypeExpr.bareAll inst.typeArgs from rfl, Subst.arityError?_bare, withSubst_bare]
      split
      · rfl
      · simp only [Option.map_some, Printer.fields_bare]
        rfl

theorem typedefLine_bare (inst : Instantiation) : typedefLine printer.bare inst.bare = typedefLine printer inst := by
  unfold typedefLine
  rw [show printer.bare.index = printer.index.bare from rfl, show inst.bare.genericName = inst.genericName from rfl,
    Index.struct?_bare, Option.map_map]
  rfl

theorem pieces_bare {α : Type} {erase : α → α} {piece? other? : α → Option Piece}
    (each : ∀ item, (other? (erase item)).map (·.text) = (piece? item).map (·.text)) (items : List α) :
    ((items.map erase).filterMap other?).flatMap (·.text) = (items.filterMap piece?).flatMap (·.text) := by
  rw [List.flatMap_def, List.flatMap_def, List.filterMap_map, List.map_filterMap, List.map_filterMap]
  simp only [Function.comp_apply, each]

theorem structs_bare : emitter.bare.structs.text = emitter.structs.text := by
  unfold structs
  dsimp only
  rw [printer_bare, show emitter.bare.insts.structs = emitter.insts.structs.bare from rfl,
    show emitter.printer.bare.index = emitter.printer.index.bare from rfl, StructOrder.ofRegistry_bare,
    show ∀ order : StructOrder, order.bare.placed = order.placed.map Instantiation.bare from fun _ => rfl,
    ← List.map_reverse, pieces_bare structPiece_bare, List.flatMap_map]
  simp only [typedefLine_bare]

def Specialized.bare (func : Specialized) : Specialized := ⟨func.inst.bare, func.decl.bare⟩

theorem specialized_bare (index : Index) (inst : Instantiation) :
    (specialized index.bare inst.bare).toOption = (specialized index inst).toOption.map Specialized.bare := by
  unfold specialized
  rw [show inst.bare.genericName = inst.genericName from rfl, index.func?_bare]
  cases index.func? inst.genericName with
  | none => rfl
  | some decl =>
    dsimp only [Option.map_some]
    rw [show decl.bare.typeParams = decl.typeParams.map TypeParam.bare from rfl,
      show inst.bare.typeArgs = TypeExpr.bareAll inst.typeArgs from rfl, Subst.arityError?_bare]
    split <;> rfl

theorem Specialized.printer_bare (func : Specialized) : func.bare.printer printer.bare = (func.printer printer).bare :=
  withSubst_bare func.decl.typeParams func.inst.typeArgs

theorem Specialized.prototype_bare (func : Specialized) :
    (func.bare.prototype printer.bare).text = (func.prototype printer).text := by
  unfold Specialized.prototype
  dsimp only
  rw [func.printer_bare, show func.bare.decl = func.decl.bare from rfl, Printer.signature_bare]
  rfl

theorem Specialized.definition?_text (func : Specialized) : (func.definition? printer).map (·.text) =
    func.decl.body.map ((func.printer printer).function func.decl func.inst.mangled) := Option.map_map ..

theorem Specialized.definition?_bare (func : Specialized) :
    (func.bare.definition? printer.bare).map (·.text) = (func.definition? printer).map (·.text) := by
  have body : func.bare.decl.body = func.decl.body.map Block.bare := rfl
  have mangled : func.bare.inst.mangled = func.inst.mangled := rfl
  rw [definition?_text, definition?_text, func.printer_bare, body, mangled, Option.map_map]
  have written : (func.printer printer).bare.function func.bare.decl func.inst.mangled ∘ Block.bare =
      (func.printer printer).function func.decl func.inst.mangled :=
    funext fun body => Printer.function_bare _ func.decl func.inst.mangled body
  rw [written]

theorem funcs_bare (bodies : Bool) : (emitter.bare.funcs bodies).text = (emitter.funcs bodies).text := by
  have found : (emitter.bare.insts.funcs.latestFirst.map (specialized emitter.bare.printer.index)).filterMap Except.toOption =
      ((emitter.insts.funcs.latestFirst.map (specialized emitter.printer.index)).filterMap Except.toOption).map
        Specialized.bare := by
    show ((emitter.insts.funcs.entries.map Instantiation.bare).reverse.map _).filterMap _ = _
    rw [printer_bare, ← List.map_reverse, List.map_map, List.filterMap_map, List.filterMap_map, List.map_filterMap]
    congr 1
    funext inst
    exact specialized_bare emitter.printer.index inst
  unfold funcs
  dsimp only
  rw [found, List.filter_map, printer_bare]
  generalize (List.map (specialized emitter.printer.index) emitter.insts.funcs.latestFirst).filterMap Except.toOption = funcs
  rw [show ((fun func : Specialized => bodies || !func.decl.storage.isStatic) ∘ Specialized.bare) =
    fun func => bodies || !func.decl.storage.isStatic from rfl]
  generalize funcs.filter _ = funcs
  have prototypes : ((funcs.map Specialized.bare).map (Specialized.prototype emitter.printer.bare)).flatMap (·.text) =
      (funcs.map (Specialized.prototype emitter.printer)).flatMap (·.text) := by
    rw [List.flatMap_map, List.flatMap_map, List.flatMap_map]
    simp only [Specialized.prototype_bare]
  rw [prototypes]
  cases bodies with
  | true => simp only [↓reduceIte, pieces_bare Specialized.definition?_bare]
  | false => simp only [Bool.false_eq_true, ↓reduceIte]

theorem declText_bare (decl : Decl) : declText printer.bare decl.bare = declText printer decl :=
  (Printer.declText_like (decl.like_bare printer.sameLabel_bare)).symm

theorem declPiece_bare (decl : Decl) : (declPiece printer.bare decl.bare).text = (declPiece printer decl).text := by
  unfold declPiece
  rw [decl.isGeneric_bare]
  split
  · rfl
  · exact declText_bare decl

theorem declPieces_bare (decls : List Decl) :
    ((decls.map Decl.bare).map (declPiece printer.bare)).flatMap (·.text) = (decls.map (declPiece printer)).flatMap (·.text) := by
  rw [List.flatMap_map, List.flatMap_map, List.flatMap_map]
  simp only [declPiece_bare]

theorem prototype?_bare (decl : Decl) :
    (prototype? printer.bare decl.bare).map (·.text) = (prototype? printer decl).map (·.text) := by
  cases decl with
  | function decl =>
    simp only [Decl.bare, prototype?, decl.isGeneric_bare, show decl.bare.storage = decl.storage from rfl]
    split
    · rfl
    · simp only [Option.map_some, Printer.signature_bare, show decl.bare.name = decl.name from rfl]
  | _ => rfl

theorem extern?_bare (decl : Decl) :
    (extern? printer.bare decl.bare).map (·.text) = (extern? printer decl).map (·.text) := by
  cases decl with
  | vars decl =>
    have uninit : ({ decl.bare with storage := { isExtern := true }, vars := decl.bare.vars.map ({ · with init := none }) } : VarDecl) =
        ({ decl with storage := { isExtern := true }, vars := decl.vars.map ({ · with init := none }) } : VarDecl).bare := by
      simp only [VarDecl.bare, List.map_map]
      rfl
    simp only [Decl.bare, extern?, show decl.bare.storage = decl.storage from rfl]
    split
    · rfl
    · rw [uninit, Printer.vars_bare]
      rfl
  | _ => rfl

theorem directives_bare (program : Program) : directives program.bare = directives program := by
  unfold directives directiveLines
  rw [show program.bare.decls = program.decls.map Decl.bare from rfl, List.filterMap_map]
  congr 3
  funext decl
  cases decl <;> rfl

theorem emit_bare : emitter.bare.emit.text = emitter.emit.text := by
  unfold emit
  dsimp only
  unfold plain
  rw [structs_bare, funcs_bare, printer_bare, show emitter.bare.program = emitter.program.bare from rfl, directives_bare,
    show emitter.program.bare.decls = emitter.program.decls.map Decl.bare from rfl, declPieces_bare]
  rfl

theorem declared_bare {piece? : Printer → Decl → Option Piece}
    (each : ∀ {printer : Printer} decl, (piece? printer.bare decl.bare).map (·.text) = (piece? printer decl).map (·.text)) :
    (emitter.bare.declared piece?).text = (emitter.declared piece?).text := by
  unfold declared
  dsimp only
  rw [printer_bare, show emitter.bare.program.decls = emitter.program.decls.map Decl.bare from rfl, pieces_bare each]

theorem emitHeader_bare (guard : Text) : (emitter.bare.emitHeader guard).text = (emitter.emitHeader guard).text := by
  have types : emitter.bare.program.decls.filter isTypeDecl = (emitter.program.decls.filter isTypeDecl).map Decl.bare := by
    show (emitter.program.decls.map Decl.bare).filter _ = _
    rw [List.filter_map]
    congr 2
    funext decl
    cases decl <;> rfl
  unfold emitHeader
  dsimp only
  unfold typeDecls
  rw [structs_bare, funcs_bare, printer_bare, emitter.declared_bare prototype?_bare, emitter.declared_bare extern?_bare, types,
    declPieces_bare, show emitter.bare.program = emitter.program.bare from rfl, directives_bare]
  rfl

end Emitter

/-- The file and the header that are written for a program do not depend on places. -/
theorem emission_bare {program other : Program} (same : program.bare = other.bare) (maxDepth : Nat) (settings : EmitSettings) :
    let emitter : Emitter := { program, insts := (prepare program maxDepth).insts, settings }
    let emitter' : Emitter := { program := other, insts := (prepare other maxDepth).insts, settings }
    emitter.emit.text = emitter'.emit.text ∧
      ∀ guard, (emitter.emitHeader guard).text = (emitter'.emitHeader guard).text := by
  intro emitter emitter'
  have bare : emitter.bare = emitter'.bare := by
    have insts : (prepare program maxDepth).insts.bare = (prepare other maxDepth).insts.bare := by
      rw [prepare_bare, prepare_bare, same]
    show Emitter.mk program.bare _ settings = Emitter.mk other.bare _ settings
    rw [same, insts]
  refine ⟨?_, fun guard => ?_⟩
  · rw [← emitter.emit_bare, ← emitter'.emit_bare, bare]
  · rw [← emitter.emitHeader_bare, ← emitter'.emitHeader_bare, bare]

/-- Two contents without problems of spelling whose tokens have the same kinds and texts are the same to the compiler: they
are parsed to the same program but for places, with the same reports, and the C files and headers written for them
are the same. -/
theorem same_tokens_same_output (settings : ParseSettings) (file file' : UInt32) (content content' : Text)
    (clean : (tokenize file content).2 = []) (clean' : (tokenize file' content').2 = [])
    (same : (tokenize file content).1.map Token.content = (tokenize file' content').1.map Token.content) :
    let parsed := parseFile settings file content
    let parsed' := parseFile settings file' content'
    parsed.program.bare = parsed'.program.bare ∧
      parsed.reports.map Diagnostic.summary = parsed'.reports.map Diagnostic.summary ∧
      ∀ maxDepth options,
        let emitter : Emitter :=
          { program := parsed.program, insts := (prepare parsed.program maxDepth).insts, settings := options }
        let emitter' : Emitter :=
          { program := parsed'.program, insts := (prepare parsed'.program maxDepth).insts, settings := options }
        emitter.emit.text = emitter'.emit.text ∧
          ∀ guard, (emitter.emitHeader guard).text = (emitter'.emitHeader guard).text := by
  intro parsed parsed'
  obtain ⟨programs, reports⟩ := parseTokens_blind settings file file' same
  refine ⟨programs, ?_, fun maxDepth options => emission_bare programs maxDepth options⟩
  show List.map _ ((if settings.reporting then (tokenize file content).2 else []) ++ _) =
    List.map _ ((if settings.reporting then (tokenize file' content').2 else []) ++ _)
  rw [clean, clean', List.map_append, List.map_append]
  exact congrArg (_ ++ ·) reports

def packedBox : Text := "struct A<T>\x7bT x;\x7d;A<int>b;"

def spacedBox : Text := "struct A<T>\n\x7bT x;\x7d; // A\nA<int> b;"

theorem packedBox_spacedBox :
    packedBox ≠ spacedBox ∧ (tokenize 0 packedBox).2 = [] ∧ (tokenize 1 spacedBox).2 = [] ∧
      (parseFile {} 0 packedBox).program.bare = (parseFile {} 1 spacedBox).program.bare ∧
      (Emitter.mk (parseFile {} 0 packedBox).program (prepare (parseFile {} 0 packedBox).program defaultDepth).insts {}).emit.text =
        (Emitter.mk (parseFile {} 1 spacedBox).program (prepare (parseFile {} 1 spacedBox).program defaultDepth).insts {}).emit.text := by
  have clean : (tokenize 0 packedBox).2 = [] := by decide +kernel
  have clean' : (tokenize 1 spacedBox).2 = [] := by decide +kernel
  have same : (tokenize 0 packedBox).1.map Token.content = (tokenize 1 spacedBox).1.map Token.content := by decide +kernel
  have independent := same_tokens_same_output {} 0 1 packedBox spacedBox clean clean' same
  exact ⟨by decide +kernel, clean, clean', independent.1, (independent.2.2 defaultDepth {}).1⟩

end GenericC
