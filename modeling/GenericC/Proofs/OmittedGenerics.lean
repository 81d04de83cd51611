import GenericC.Proofs.LookedUpText
import GenericC.Proofs.UnusedGenerics

/-! The C file and the header stay as they are when the declarations of an unused generic are left out: whatever is
written was looked up for a declaration that does not name it. -/

namespace GenericC

variable {inst : Instantiation}

namespace StructOrder

variable {first second : Index} {structs : Registry}

theorem members_alike (same : second.struct? inst.genericName = first.struct? inst.genericName) :
    members second structs inst = members first structs inst := by
  unfold members
  rw [same]

theorem place_alike (valid : structs.Valid)
    (same : ∀ inst ∈ structs.entries, second.struct? inst.genericName = first.struct? inst.genericName) (steps : Nat)
    (order : StructOrder) (member : inst ∈ structs.entries) :
    place second structs steps order inst = place first structs steps order inst := by
  induction steps generalizing order inst with
  | zero => rfl
  | succ steps ih =>
    have below (order : StructOrder) : (members first structs inst).foldl (place second structs steps) order =
        (members first structs inst).foldl (place first structs steps) order :=
      List.foldl_ext _ _ _ fun order other inside => ih order (members_known valid inst inside)
    simp only [place, same inst member, members_alike (same inst member), below]

theorem ofRegistry_alike (valid : structs.Valid)
    (same : ∀ inst ∈ structs.entries, second.struct? inst.genericName = first.struct? inst.genericName) :
    ofRegistry second structs = ofRegistry first structs :=
  List.foldl_ext _ _ _ fun order _ member => place_alike valid same structs.size order (List.mem_reverse.mp member)

end StructOrder

theorem Node.Alike.subset {first second : Index} {subst : Subst} {tree part : Node} (alike : tree.Alike first second subst)
    (labels : part.labels ⊆ tree.labels) : part.Alike first second subst :=
  fun label member => alike label (labels member)

theorem bodiless_labels (decl : FuncDecl) : ({ decl with body := none } : FuncDecl).toNode.labels ⊆ decl.toNode.labels := by
  simp only [FuncDecl.toNode, Node.labels_node, Option.toList_none, List.map_nil, List.append_nil, List.flatMap_append]
  exact List.cons_subset_cons _ (List.subset_append_left _ _)

theorem Printer.index_over (printer : Printer) (index : Index) : (printer.over index).index = index := rfl

theorem Printer.withSubst_over (printer : Printer) (index : Index) (subst : Subst) :
    (printer.over index).withSubst subst = (printer.withSubst subst).over index := rfl

namespace Emitter

theorem Specialized.printer_over (printer : Printer) (index : Index) (func : Specialized) :
    func.printer (printer.over index) = (func.printer printer).over index := rfl

/-- Another index says the same about all that is looked up for the files of an emitter. -/
structure Agrees (emitter : Emitter) (index : Index) : Prop where
  trees : ∀ ⦃tree subst⦄, emitter.Searched tree subst → tree.Alike emitter.index index subst
  structs : ∀ inst ∈ emitter.insts.structs.entries,
    index.struct? inst.genericName = emitter.index.struct? inst.genericName
  funcs : ∀ inst ∈ emitter.insts.funcs.entries, index.func? inst.genericName = emitter.index.func? inst.genericName
  plain : index.plain = emitter.index.plain

variable {emitter : Emitter} {index : Index}

theorem Agrees.struct? (agrees : emitter.Agrees index) (member : inst ∈ emitter.insts.structs.entries) :
    (emitter.printer.over index).index.struct? inst.genericName = emitter.printer.index.struct? inst.genericName :=
  agrees.structs inst member

theorem Agrees.structPiece (agrees : emitter.Agrees index) (member : inst ∈ emitter.insts.structs.entries) :
    Emitter.structPiece (emitter.printer.over index) inst = Emitter.structPiece emitter.printer inst := by
  unfold Emitter.structPiece
  rw [agrees.struct? member]
  cases declared : emitter.printer.index.struct? inst.genericName with
  | none => rfl
  | some decl =>
    dsimp only
    cases body : decl.fields with
    | none => rfl
    | some fields =>
      dsimp only
      have member : inst ∈ (emitter.insts.registry .struct).entries := member
      have declared : emitter.index.struct? inst.genericName = some decl := declared
      have searched : emitter.Searched decl.toNode (.ofParams decl.typeParams inst.typeArgs) :=
        .specialized member (by simp [Index.declaration?, declared])
      have alike : (emitter.printer.withSubst (.ofParams decl.typeParams inst.typeArgs)).Agrees index decl.toNode :=
        agrees.trees searched
      have text := Printer.fields_over decl alike
      rw [show decl.fieldList = fields by rw [StructDecl.fieldList, body, Option.getD_some]] at text
      simp only [Printer.withSubst_over, text, Printer.problems_over alike agrees.plain]

theorem Agrees.typedefLine (agrees : emitter.Agrees index) (member : inst ∈ emitter.insts.structs.entries) :
    Emitter.typedefLine (emitter.printer.over index) inst = Emitter.typedefLine emitter.printer inst := by
  unfold Emitter.typedefLine
  rw [agrees.struct? member]
  rfl

theorem Agrees.specialized (agrees : emitter.Agrees index) (member : inst ∈ emitter.insts.funcs.entries) :
    Emitter.specialized index inst = Emitter.specialized emitter.index inst := by
  unfold Emitter.specialized
  rw [agrees.funcs inst member]

theorem Agrees.prototype (agrees : emitter.Agrees index) {bodies : Bool} {func : Specialized}
    (member : func ∈ emitter.specializedFuncs bodies) :
    func.prototype (emitter.printer.over index) = func.prototype emitter.printer := by
  have alike : (func.printer emitter.printer).Agrees index func.decl.toNode := agrees.trees (searched_func member)
  have text := Printer.signature_over func.decl func.inst.mangled alike
  have reports := Printer.problems_over (alike.subset (bodiless_labels func.decl)) agrees.plain
  simp only [Specialized.prototype, Specialized.printer_over, text, reports]

theorem Agrees.definition? (agrees : emitter.Agrees index) {bodies : Bool} {func : Specialized}
    (member : func ∈ emitter.specializedFuncs bodies) :
    func.definition? (emitter.printer.over index) = func.definition? emitter.printer := by
  have alike : (func.printer emitter.printer).Agrees index func.decl.toNode := agrees.trees (searched_func member)
  have reports := Printer.problems_over alike agrees.plain
  refine Option.map_congr fun body given => ?_
  rw [Specialized.printer_over, Printer.function_over func.inst.mangled given alike, reports]

theorem Agrees.declPiece (agrees : emitter.Agrees index) {decl : Decl} (member : decl ∈ emitter.program.decls) :
    Emitter.declPiece (emitter.printer.over index) decl = Emitter.declPiece emitter.printer decl := by
  unfold Emitter.declPiece
  split
  · rfl
  next notGeneric =>
    have plain : decl.isGeneric = false := by simpa using notGeneric
    have alike : emitter.printer.Agrees index decl.toNode := agrees.trees (.plain member plain)
    rw [Printer.declText_over alike, Printer.problems_over alike agrees.plain]

theorem Agrees.prototype? (agrees : emitter.Agrees index) {decl : Decl} (member : decl ∈ emitter.program.decls) :
    Emitter.prototype? (emitter.printer.over index) decl = Emitter.prototype? emitter.printer decl := by
  cases decl with
  | function decl =>
    simp only [Emitter.prototype?]
    split
    · rfl
    next shown =>
      have plain : (Decl.function decl).isGeneric = false := by
        simp only [Bool.or_eq_true, not_or, Bool.not_eq_true] at shown
        exact shown.1
      have alike : emitter.printer.Agrees index decl.toNode := agrees.trees (.plain member plain)
      rw [Printer.signature_over decl decl.name alike,
        Printer.problems_over (alike.subset (bodiless_labels decl)) agrees.plain]
  | _ => rfl

theorem Agrees.extern? (agrees : emitter.Agrees index) {decl : Decl} (member : decl ∈ emitter.program.decls) :
    Emitter.extern? (emitter.printer.over index) decl = Emitter.extern? emitter.printer decl := by
  cases decl with
  | vars decl =>
    have alike : emitter.printer.Agrees index (externVars decl).toNode :=
      (agrees.trees (.plain member rfl)).subset (externVars_labels decl)
    have text := Printer.vars_over (externVars decl) alike
    have reports := Printer.problems_over alike agrees.plain
    unfold externVars at text reports
    simp only [Emitter.extern?, text, reports]
  | _ => rfl

def withProgram (emitter : Emitter) (program : Program) : Emitter := { emitter with program }

variable {program : Program} {removed : Text}

@[simp] theorem program_withProgram (emitter : Emitter) (program : Program) :
    (emitter.withProgram program).program = program := rfl

@[simp] theorem insts_withProgram (emitter : Emitter) (program : Program) :
    (emitter.withProgram program).insts = emitter.insts := rfl

@[simp] theorem settings_withProgram (emitter : Emitter) (program : Program) :
    (emitter.withProgram program).settings = emitter.settings := rfl

@[simp] theorem printer_withProgram (emitter : Emitter) (program : Program) :
    (emitter.withProgram program).printer = emitter.printer.over (.ofProgram program) := rfl

theorem Agrees.structs_withProgram (agrees : emitter.Agrees (.ofProgram program)) (valid : emitter.insts.structs.Valid) :
    (emitter.withProgram program).structs = emitter.structs := by
  have order : StructOrder.ofRegistry (.ofProgram program) emitter.insts.structs =
      StructOrder.ofRegistry emitter.index emitter.insts.structs := StructOrder.ofRegistry_alike valid agrees.structs
  have entry : ∀ inst ∈ (StructOrder.ofRegistry emitter.index emitter.insts.structs).placed.reverse,
      inst ∈ emitter.insts.structs.entries := fun inst member =>
    ((StructOrder.mem_placed_ofRegistry valid).mp (List.mem_reverse.mp member)).1
  have pieces := List.filterMap_congr fun inst member => agrees.structPiece (entry inst member)
  have lines := List.flatMap_congr fun inst member => agrees.typedefLine (entry inst member)
  unfold Emitter.structs
  simp only [printer_withProgram, insts_withProgram, Printer.index_over, order, pieces, lines]
  rfl

theorem Agrees.funcs_withProgram (agrees : emitter.Agrees (.ofProgram program)) (bodies : Bool) :
    (emitter.withProgram program).funcs bodies = emitter.funcs bodies := by
  have found : emitter.insts.funcs.latestFirst.map (Emitter.specialized (.ofProgram program)) =
      emitter.insts.funcs.latestFirst.map (Emitter.specialized emitter.index) :=
    List.map_congr_left fun inst member => agrees.specialized (List.mem_reverse.mp member)
  have prototypes : (emitter.specializedFuncs bodies).map (Specialized.prototype (emitter.printer.over (.ofProgram program))) =
      (emitter.specializedFuncs bodies).map (Specialized.prototype emitter.printer) :=
    List.map_congr_left fun func member => agrees.prototype member
  have definitions :
      (emitter.specializedFuncs bodies).filterMap (Specialized.definition? (emitter.printer.over (.ofProgram program))) =
        (emitter.specializedFuncs bodies).filterMap (Specialized.definition? emitter.printer) :=
    List.filterMap_congr fun func member => agrees.definition? member
  unfold specializedFuncs at prototypes definitions
  unfold Emitter.funcs
  simp only [printer_withProgram, insts_withProgram, Printer.index_over, found, prototypes, definitions]
  rfl

theorem Agrees.decls_without (agrees : emitter.Agrees (.ofProgram (emitter.program.without removed)))
    (keep : Decl → Bool) {α : Type} (read : Piece → List α) (empty : read {} = []) :
    (((emitter.program.without removed).decls.filter keep).map
        (Emitter.declPiece (emitter.withProgram (emitter.program.without removed)).printer)).flatMap read =
      ((emitter.program.decls.filter keep).map (Emitter.declPiece emitter.printer)).flatMap read := by
  have kept (decls : List Decl) (printer : Printer) : ((decls.filter keep).map (Emitter.declPiece printer)).flatMap read =
      decls.flatMap fun decl => if keep decl then read (Emitter.declPiece printer decl) else [] := by
    induction decls with
    | nil => rfl
    | cons decl rest ih => cases here : keep decl <;> simp [here, ih]
  rw [kept, kept, Program.flatMap_without]
  · refine List.flatMap_congr fun decl member => ?_
    rw [printer_withProgram, agrees.declPiece member]
  · intro decl generic
    rw [Emitter.declPiece, if_pos generic, empty, ite_self]

theorem declared_without {piece? : Printer → Decl → Option Piece}
    (blind : ∀ printer decl, decl.isGeneric = true → piece? printer decl = none)
    (same : ∀ decl ∈ emitter.program.decls,
      piece? (emitter.printer.over (.ofProgram (emitter.program.without removed))) decl = piece? emitter.printer decl) :
    (emitter.withProgram (emitter.program.without removed)).declared piece? = emitter.declared piece? := by
  unfold Emitter.declared
  rw [printer_withProgram, program_withProgram, Program.filterMap_without _ _ (blind _), List.filterMap_congr same]

theorem directives_without (program : Program) (removed : Text) :
    directives (program.without removed) = directives program := by
  have lines : directiveLines (program.without removed) = directiveLines program := by
    refine program.filterMap_without removed fun decl generic => ?_
    cases decl with
    | struct decl | function decl => rfl
    | _ => cases generic
  unfold directives
  rw [lines]

theorem Agrees.emit_without (agrees : emitter.Agrees (.ofProgram (emitter.program.without removed)))
    (valid : emitter.insts.structs.Valid) :
    (emitter.withProgram (emitter.program.without removed)).emit = emitter.emit := by
  have plain {α : Type} (read : Piece → List α) (empty : read {} = []) :
      (emitter.withProgram (emitter.program.without removed)).plain.flatMap read = emitter.plain.flatMap read := by
    have all := agrees.decls_without (fun _ => true) read empty
    rwa [List.filter_true, List.filter_true] at all
  unfold emit
  dsimp only
  rw [agrees.structs_withProgram valid, agrees.funcs_withProgram true, plain (·.text) rfl, plain (·.reports) rfl,
    program_withProgram, directives_without, settings_withProgram]

theorem prototype?_generic (printer : Printer) (decl : Decl) (generic : decl.isGeneric = true) :
    prototype? printer decl = none := by
  cases decl with
  | function decl =>
    have generic : decl.isGeneric = true := generic
    simp [prototype?, generic]
  | _ => rfl

theorem extern?_generic (printer : Printer) (decl : Decl) (generic : decl.isGeneric = true) :
    extern? printer decl = none := by
  cases decl with
  | vars decl => cases generic
  | _ => rfl

theorem Agrees.emitHeader_without (agrees : emitter.Agrees (.ofProgram (emitter.program.without removed)))
    (valid : emitter.insts.structs.Valid) (guard : Text) :
    (emitter.withProgram (emitter.program.without removed)).emitHeader guard = emitter.emitHeader guard := by
  have types {α : Type} (read : Piece → List α) (empty : read {} = []) :
      (emitter.withProgram (emitter.program.without removed)).typeDecls.flatMap read = emitter.typeDecls.flatMap read :=
    agrees.decls_without isTypeDecl read empty
  have prototypes := declared_without prototype?_generic fun _ member => agrees.prototype? member
  have externs := declared_without extern?_generic fun _ member => agrees.extern? member
  unfold emitHeader
  dsimp only
  rw [agrees.structs_withProgram valid, agrees.funcs_withProgram false, types (·.text) rfl, types (·.reports) rfl,
    prototypes, externs, program_withProgram, directives_without, settings_withProgram]

end Emitter

theorem Program.Unused.agrees {program : Program} {maxDepth : Nat} {removed : Text}
    (unused : program.Unused maxDepth removed) (settings : EmitSettings) :
    Emitter.Agrees ⟨program, (GenericC.prepare program maxDepth).insts, settings⟩ (.ofProgram (program.without removed)) := by
  have clear := unused.clear
  obtain ⟨walk, result, sound, -⟩ := prepare_walk program maxDepth
  have opened := unused.opened
  rw [result] at clear opened ⊢
  refine ⟨?_, ?_, ?_, Index.plain_without program removed⟩
  · intro tree subst searched
    refine Node.alike_of_unnamed ?_ ?_ (fun _ => Index.struct?_without) fun _ => Index.func?_without
    · cases searched with
      | @plain decl member plain => exact unused.plain decl member plain
      | @specialized kind entry node params member declared =>
        have own : entry.kind = kind := ((sound.valid kind).kind entry member).trans (sound.kind kind)
        exact opened entry ⟨kind, member⟩ tree params (own ▸ declared)
    · cases searched with
      | plain member plain => exact Subst.avoids_empty removed
      | @specialized kind entry node params member declared =>
        exact Subst.avoids_ofParams params (clear.avoids entry ⟨kind, member⟩).args
  · exact fun entry member => Index.struct?_without (clear.avoids entry ⟨.struct, member⟩).name
  · exact fun entry member => Index.func?_without (clear.avoids entry ⟨.func, member⟩).name

/-- The generic declarations of a name that is not applied to types in any declaration that is not generic or that is
instantiated can be left out: the same instantiations are found, the same is reported, and both files stay the same. -/
theorem unused_generics_leave_no_trace (program : Program) (maxDepth : Nat) (removed : Text)
    (unused : program.Unused maxDepth removed) (settings : EmitSettings) (guard : Text) :
    let found := prepare program maxDepth
    let without := program.without removed
    prepare without maxDepth = found ∧
      Emitter.emit ⟨without, (prepare without maxDepth).insts, settings⟩ = Emitter.emit ⟨program, found.insts, settings⟩ ∧
      Emitter.emitHeader ⟨without, (prepare without maxDepth).insts, settings⟩ guard =
        Emitter.emitHeader ⟨program, found.insts, settings⟩ guard := by
  intro found without
  have same : prepare without maxDepth = found := unused.prepare
  have agrees := unused.agrees settings
  have valid : found.insts.structs.Valid := by
    obtain ⟨walk, result, sound, -⟩ := prepare_walk program maxDepth
    rw [show found = walk.result from result]
    exact sound.valid .struct
  rw [same]
  exact ⟨rfl, agrees.emit_without valid, agrees.emitHeader_without valid guard⟩

/-- A box that is used, and a struct and a function that are not, though the struct asks for a box of its own. -/
def spareGenerics : Text :=
  "struct Box<T> \x7b T item; \x7d; struct Spare<T> \x7b Box<int> own; Spare<T*>* next; \x7d; int Spare<T>(T x); Box<char> box;"

/-- Both declarations of the unused name can be left out, though one of them would need more boxes. -/
theorem spareGenerics_omitted :
    let program := (parseFile {} 0 spareGenerics).program
    let without := program.without "Spare"
    (program.decls.length = 4 ∧ without.decls.length = 2) ∧ program.Unused 64 "Spare" ∧
      prepare without 64 = prepare program 64 ∧
      Emitter.emit ⟨without, (prepare without 64).insts, {}⟩ = Emitter.emit ⟨program, (prepare program 64).insts, {}⟩ := by
  intro program without
  have opened := prepare_within program 64 (fun result => [InstKind.struct, .func].all fun kind =>
    (result.insts.registry kind).entries.all fun entry =>
      ((Index.ofProgram program).declaration? entry.kind entry.genericName).all fun found =>
        !found.1.generics.contains (Text.ofString "Spare")) 3 (by decide +kernel)
  have unused : program.Unused 64 "Spare" := by
    refine ⟨by decide +kernel, ?_⟩
    rintro entry ⟨kind, member⟩ node params declared
    have both := List.all_eq_true.mp opened kind (by cases kind <;> decide)
    have own := List.all_eq_true.mp both entry member
    simpa [declared] using own
  have same := unused_generics_leave_no_trace program 64 "Spare" unused {} []
  exact ⟨by decide +kernel, unused, same.1, same.2.1⟩

end GenericC
