import GenericC.Proofs.EmittedDocument
import GenericC.Proofs.ExpansionClosure
import GenericC.Proofs.LayoutOrigins
import GenericC.Proofs.StructPlacement

/-! Every C name that a written file refers to is declared in it. Whatever the text of a declaration refers to is
used in its tree, so it was looked for when the instantiations were collected. -/

namespace GenericC

variable {args : List TypeExpr}

inductive Fragment.Refers (index : Index) : Fragment → InstKind → Text → List TypeExpr → Prop where
  | struct {type : TypeExpr} {name : Text} {args : List TypeExpr} {loc : Span}
      (base : type.base = .applied name args loc) (declared : (index.struct? name).isSome) :
      Refers index (.type type) .struct name args
  | func {name : Text} {args : List TypeExpr} : Refers index (.genericCall name args) .func name args

theorem TypeExpr.within_base (type : TypeExpr) : type.base.Within type := by
  induction type using TypeExpr.byParts with
  | pointer elem loc ih => exact .elem ih
  | _ => exact .here

theorem Fragment.From.uses {printer : Printer} {tree : Node} {fragment : Fragment} (source : fragment.From printer tree)
    {kind : InstKind} {name : Text} (refers : fragment.Refers printer.index kind name args) :
    tree.Uses printer.index printer.subst kind name args := by
  cases source with
  | @type label type written label_mem type_mem base =>
    cases refers with
    | @struct _ _ _ loc applied declared =>
      have within : (TypeExpr.applied name args loc).Within (printer.subst.type type) := by
        rw [← applied, base]
        exact TypeExpr.within_base _
      exact .struct label_mem type_mem within declared
  | call label_mem call typed declared =>
    cases refers
    exact .func label_mem call typed declared

theorem Needed.func_declared {program : Program} {name : Text} (needed : Needed program .func name args) :
    ∃ decl, (Index.ofProgram program).func? name = some decl := by
  have uses : ∀ {tree subst}, Node.Uses (.ofProgram program) subst tree .func name args →
      ∃ decl, (Index.ofProgram program).func? name = some decl := by
    intro tree subst uses
    cases uses with
    | func label_mem call typed declared => exact Option.isSome_iff_exists.mp declared
  cases needed with
  | written member plain used fits | opened below declared used fits => exact uses used

/-- The trees in which uses were looked for, each with what replaces its type parameters. -/
inductive Emitter.Searched (emitter : Emitter) : Node → Subst → Prop where
  | plain {decl : Decl} (member : decl ∈ emitter.program.decls) (plain : decl.isGeneric = false) :
      Searched emitter decl.toNode {}
  | specialized {kind : InstKind} {entry : Instantiation} {node : Node} {params : List TypeParam}
      (member : entry ∈ (emitter.insts.registry kind).entries)
      (declared : emitter.index.declaration? kind entry.genericName = some (node, params)) :
      Searched emitter node (.ofParams params entry.typeArgs)

def Emitter.Asked (emitter : Emitter) (kind : InstKind) (name : Text) (args : List TypeExpr) : Prop :=
  ∃ tree subst, emitter.Searched tree subst ∧ tree.Uses emitter.index subst kind name args

abbrev Item.Supported (emitter : Emitter) (item : Item) : Prop :=
  Covered (fun fragment => ∀ ⦃kind name args⦄, fragment.Refers emitter.index kind name args →
    emitter.Asked kind name args) (item.layout emitter.printer)

namespace Emitter

variable {emitter : Emitter}
variable {func : Specialized} {entry : Instantiation}

theorem Searched.covers {tree : Node} {subst : Subst} (searched : emitter.Searched tree subst) {layout : List Fragment}
    (covered : (emitter.printer.withSubst subst).CoveredBy tree layout) :
    Covered (fun fragment => ∀ ⦃kind name args⦄, fragment.Refers emitter.index kind name args →
      emitter.Asked kind name args) layout :=
  covered.mono fun _ source _ _ _ refers => ⟨tree, subst, searched, source.uses refers⟩

theorem specialized_eq_some {index : Index} {inst : Instantiation} :
    (specialized index inst).toOption = some func ↔
      func.inst = inst ∧ index.func? inst.genericName = some func.decl ∧
        func.decl.typeParams.length = inst.typeArgs.length := by
  obtain ⟨found, decl⟩ := func
  unfold specialized
  cases index.func? inst.genericName with
  | none => simp [Except.toOption]
  | some other =>
    dsimp only
    cases wrong : Subst.arityError? other.typeParams inst.typeArgs with
    | some error =>
      have misfit : ¬ other.typeParams.length = inst.typeArgs.length := by
        rw [← Walk.arityError?_eq_none, wrong]
        simp
      simp only [Except.toOption, reduceCtorEq, Option.some.injEq, false_iff, not_and]
      rintro - rfl
      exact misfit
    | none =>
      have fits := Walk.arityError?_eq_none.mp wrong
      simp only [Except.toOption, Option.some.injEq, Specialized.mk.injEq]
      constructor
      · rintro ⟨rfl, rfl⟩
        exact ⟨rfl, rfl, fits⟩
      · rintro ⟨rfl, rfl, -⟩
        exact ⟨rfl, rfl⟩

theorem mem_specializedFuncs {bodies : Bool} :
    func ∈ emitter.specializedFuncs bodies ↔ func.inst ∈ emitter.insts.funcs.entries ∧
      emitter.index.func? func.inst.genericName = some func.decl ∧
      func.decl.typeParams.length = func.inst.typeArgs.length ∧ (bodies || !func.decl.storage.isStatic) := by
  simp only [specializedFuncs, List.mem_filter, List.mem_filterMap, List.mem_map, Registry.latestFirst, List.mem_reverse]
  constructor
  · rintro ⟨⟨outcome, ⟨inst, member, rfl⟩, found⟩, wanted⟩
    obtain ⟨rfl, declared, fits⟩ := specialized_eq_some.mp found
    exact ⟨member, declared, fits, wanted⟩
  · rintro ⟨member, declared, fits, wanted⟩
    exact ⟨⟨_, ⟨func.inst, member, rfl⟩, specialized_eq_some.mpr ⟨rfl, declared, fits⟩⟩, wanted⟩

inductive Writes (emitter : Emitter) : Item → Prop where
  | lines (text : Text) : Writes emitter (.lines text)
  | typedef {inst : Instantiation} (member : inst ∈ emitter.insts.structs.entries)
      (untagged : inst.mangled ∉ emitter.tagged) : Writes emitter (.typedef inst)
  | struct {inst : Instantiation} {decl : StructDecl} {fields : List Field}
      (member : inst ∈ emitter.insts.structs.entries) (declared : emitter.index.struct? inst.genericName = some decl)
      (body : decl.fields = some fields) (fits : decl.typeParams.length = inst.typeArgs.length) :
      Writes emitter (.struct inst decl fields)
  | prototype {bodies : Bool} {func : Specialized} (member : func ∈ emitter.specializedFuncs bodies) :
      Writes emitter (.prototype func)
  | function {bodies : Bool} {func : Specialized} {body : Block} (member : func ∈ emitter.specializedFuncs bodies)
      (given : func.decl.body = some body) : Writes emitter (.function func body)
  | plain {decl : Decl} (member : decl ∈ emitter.program.decls) (plain : decl.isGeneric = false) :
      Writes emitter (.plain decl)
  | bodiless {func : FuncDecl} (member : .function func ∈ emitter.program.decls) (plain : func.isGeneric = false) :
      Writes emitter (.plain (.function { func with body := none }))
  | shared {vars : VarDecl} (member : .vars vars ∈ emitter.program.decls) :
      Writes emitter (.plain (.vars (externVars vars)))

theorem writes_paragraph {items : List Item} (all : ∀ item ∈ items, emitter.Writes item) :
    ∀ item ∈ Item.paragraph items, emitter.Writes item := by
  unfold Item.paragraph
  split
  · simp
  · exact List.forall_mem_append.mpr ⟨all, List.forall_mem_singleton.mpr (.lines _)⟩

theorem writes_plainItems {decls : List Decl} (inside : decls ⊆ emitter.program.decls) :
    ∀ item ∈ decls.filterMap plainItem?, emitter.Writes item := by
  intro item member
  obtain ⟨decl, within, found⟩ := List.mem_filterMap.mp member
  obtain ⟨plain, rfl⟩ := plainItem?_eq_some found
  exact .plain (inside within) plain

theorem writes_structItems (valid : emitter.insts.structs.Valid) : ∀ item ∈ emitter.structItems, emitter.Writes item := by
  refine List.forall_mem_append.mpr ⟨writes_paragraph fun item member => ?_, fun item member => ?_⟩
  · obtain ⟨inst, placed, found⟩ := List.mem_filterMap.mp member
    have placed := (StructOrder.mem_placed_ofRegistry valid).mp (List.mem_reverse.mp placed)
    cases typedefItem?_eq_some found
    refine .typedef placed.1 fun tagged => ?_
    simp [typedefItem?, tagged] at found
  · obtain ⟨inst, placed, found⟩ := List.mem_filterMap.mp member
    have placed := (StructOrder.mem_placed_ofRegistry valid).mp (List.mem_reverse.mp placed)
    obtain ⟨decl, fields, declared, body, fits, rfl⟩ := structItem?_eq_some found
    exact .struct placed.1 declared body (Walk.arityError?_eq_none.mp fits)

theorem writes_funcItems (bodies : Bool) : ∀ item ∈ emitter.funcItems bodies, emitter.Writes item := by
  refine List.forall_mem_append.mpr ⟨writes_paragraph fun item member => ?_, fun item member => ?_⟩
  · obtain ⟨func, inside, rfl⟩ := List.mem_map.mp member
    exact .prototype inside
  · split at member
    · obtain ⟨func, inside, found⟩ := List.mem_filterMap.mp member
      obtain ⟨body, given, rfl⟩ := Option.map_eq_some_iff.mp found
      exact .function inside given
    · cases member

theorem writes_document (valid : emitter.insts.structs.Valid) : ∀ item ∈ emitter.document, emitter.Writes item := by
  simp only [document, List.forall_mem_append, List.forall_mem_cons]
  exact ⟨⟨⟨⟨.lines _, .lines _, by simp⟩, writes_structItems valid⟩, writes_funcItems true⟩,
    writes_plainItems (List.Subset.refl _)⟩

theorem writes_headerDocument (valid : emitter.insts.structs.Valid) (guard : Text) :
    ∀ item ∈ emitter.headerDocument guard, emitter.Writes item := by
  have prototypes : ∀ item ∈ emitter.program.decls.filterMap prototypeItem?, emitter.Writes item := by
    intro item member
    obtain ⟨decl, inside, found⟩ := List.mem_filterMap.mp member
    obtain ⟨func, rfl, plain, rfl⟩ := prototypeItem?_eq_some found
    exact .bodiless inside plain
  have externs : ∀ item ∈ emitter.program.decls.filterMap externItem?, emitter.Writes item := by
    intro item member
    obtain ⟨decl, inside, found⟩ := List.mem_filterMap.mp member
    obtain ⟨vars, rfl, rfl⟩ := externItem?_eq_some found
    exact .shared inside
  simp only [headerDocument, List.forall_mem_append, List.forall_mem_cons]
  exact ⟨⟨⟨⟨⟨⟨⟨.lines _, .lines _, .lines _, by simp⟩, writes_structItems valid⟩,
    writes_plainItems ((List.filter_subset_self _))⟩, writes_funcItems false⟩, writes_paragraph prototypes⟩,
    writes_paragraph externs⟩, .lines _, by simp⟩

theorem searched_func {bodies : Bool} (member : func ∈ emitter.specializedFuncs bodies) :
    emitter.Searched func.decl.toNode (.ofParams func.decl.typeParams func.inst.typeArgs) := by
  obtain ⟨inside, declared, -⟩ := mem_specializedFuncs.mp member
  have inside : func.inst ∈ (emitter.insts.registry .func).entries := inside
  exact .specialized inside (by simp [Index.declaration?, declared])

theorem externVars_labels (decl : VarDecl) : (externVars decl).toNode.labels ⊆ decl.toNode.labels := by
  have each (declarator : Declarator) : ({ declarator with init := none } : Declarator).toNode.labels ⊆
      declarator.toNode.labels := by
    simp only [Declarator.toNode, Node.labels_node, Expr.optionalNodes, Option.toList_none, List.map_nil,
      List.append_nil, List.flatMap_append]
    exact List.cons_subset_cons _ (List.subset_append_left _ _)
  simp only [VarDecl.toNode, externVars, Node.labels_node, List.flatMap_map, List.map_map]
  refine List.cons_subset_cons _ fun label member => ?_
  obtain ⟨declarator, inside, found⟩ := List.mem_flatMap.mp member
  exact List.mem_flatMap.mpr ⟨declarator, inside, each declarator found⟩

theorem Writes.supported {item : Item} (written : emitter.Writes item) : item.Supported emitter := by
  cases written with
  | lines text | typedef member untagged => simp [Item.Supported, Item.layout]
  | @struct inst decl fields member declared body fits =>
    have member : inst ∈ (emitter.insts.registry .struct).entries := member
    have searched : emitter.Searched decl.toNode (.ofParams decl.typeParams inst.typeArgs) :=
      .specialized member (by simp [Index.declaration?, declared])
    exact searched.covers (Printer.coveredBy_structBodyLayout body inst.mangled)
  | @prototype bodies func member =>
    exact (searched_func member).covers (Printer.coveredBy_prototypeLayout func.decl func.inst.mangled)
  | @function bodies func body member given =>
    exact (searched_func member).covers (Printer.coveredBy_functionLayout given func.inst.mangled)
  | @plain decl member plain => exact (Searched.plain member plain).covers (Printer.coveredBy_declLayout decl)
  | @bodiless func member plain =>
    have same : FuncDecl.isGeneric { func with body := none } = false := plain
    have layout : (Item.plain (.function { func with body := none })).layout emitter.printer =
        emitter.printer.prototypeLayout func func.name := if_neg (by simp [same])
    rw [Item.Supported, layout]
    exact (Searched.plain member plain).covers (Printer.coveredBy_prototypeLayout func func.name)
  | @shared vars member =>
    refine (Searched.plain member rfl).covers (Covered.mono (Printer.coveredBy_declLayout (.vars (externVars vars))) ?_)
    exact fun _ source => source.mono (externVars_labels vars)

theorem document_supported (valid : emitter.insts.structs.Valid) :
    ∀ item ∈ emitter.document, item.Supported emitter :=
  fun item member => (writes_document valid item member).supported

theorem headerDocument_supported (valid : emitter.insts.structs.Valid) (guard : Text) :
    ∀ item ∈ emitter.headerDocument guard, item.Supported emitter :=
  fun item member => (writes_headerDocument valid guard item member).supported

/-- Whatever was looked for is registered for exactly its arguments, and every registered function is declared. -/
structure Complete (emitter : Emitter) : Prop where
  valid : ∀ kind, (emitter.insts.registry kind).Valid
  registered : ∀ {kind name args}, emitter.Asked kind name args →
    ∃ entry ∈ (emitter.insts.registry kind).entries, entry.genericName = name ∧ TypeExpr.sameLists entry.typeArgs args
  declared : ∀ entry ∈ emitter.insts.funcs.entries, ∃ decl,
    emitter.index.func? entry.genericName = some decl ∧ decl.typeParams.length = entry.typeArgs.length

theorem complete_of_clean {program : Program} {maxDepth : Nat} (written : program.Written)
    (clean : ∀ report ∈ (prepare program maxDepth).reports, report.isError = false) (settings : EmitSettings) :
    Complete ⟨program, (prepare program maxDepth).insts, settings⟩ := by
  obtain ⟨walk, result, sound, answered⟩ := prepare_walk program maxDepth
  rw [result] at clean ⊢
  have none : walk.reports = [] := by
    refine List.eq_nil_iff_forall_not_mem.mpr fun report member => ?_
    have error := clean report (List.mem_reverse.mpr member)
    rw [Diagnostic.isError, sound.errors report member] at error
    cases error
  obtain ⟨collected, expanded⟩ := answered fun report member => by simp [none] at member
  have head {kind : InstKind} {entry : Instantiation} (member : entry ∈ (walk.insts.registry kind).entries) :
      (entry.genericName, entry.typeArgs) ∈ (walk.insts.registry kind).heads := List.mem_map.mpr ⟨entry, member, rfl⟩
  refine ⟨sound.valid, ?_, ?_⟩
  · rintro kind name args ⟨tree, subst, searched, uses⟩
    have settled : walk.Answers program kind name args ∧ TypeExpr.AllKeyed args := by
      cases searched with
      | @plain decl member plain =>
        refine ⟨collected decl (List.mem_filter.mpr ⟨member, by simp [plain]⟩) uses, ?_⟩
        exact uses.keyed (written decl member).types.keyed Subst.keyed_empty
      | @specialized owner entry node params member declared =>
        have keyed := (sound.needed owner _ (head member)).keyed written
        refine ⟨expanded owner _ (head member) declared uses, ?_⟩
        exact uses.keyed (written.declaration declared) (Subst.keyed_ofParams _ keyed)
    exact sound.entry written settled.2 (settled.1.has (settled.1.fits none))
  · intro entry member
    have needed : Needed program .func entry.genericName entry.typeArgs := sound.needed .func _ (head member)
    obtain ⟨decl, found⟩ := needed.func_declared
    have fits := needed.fits
    exact ⟨decl, found, by simpa [Index.Fits, Index.paramsOf, found] using fits⟩

/-- The file has a typedef of the C name of every struct that is written without its keyword. -/
def TypesBacked (emitter : Emitter) (items : List Item) : Prop :=
  ∀ item ∈ items, ∀ type, Fragment.type type ∈ item.layout emitter.printer →
    ∀ name args loc decl, type.base = .applied name args loc → emitter.index.struct? name = some decl →
      ∃ entry ∈ emitter.insts.structs.entries, entry.genericName = name ∧ TypeExpr.sameLists entry.typeArgs args ∧
        ((.typedef entry ∈ items ∧
          emitter.printer.render type = entry.mangled ++ List.replicate type.pointerDepth (Text.byte '*')) ∨
        (entry.mangled ∈ emitter.tagged ∧ emitter.printer.render type =
          Text.concat [decl.keyword, " ", entry.mangled] ++ List.replicate type.pointerDepth (Text.byte '*')))

/-- A call that is written under the C name of a function: the instantiation is registered for exactly these types. -/
def CallsBacked (emitter : Emitter) (items : List Item) : Prop :=
  ∀ item ∈ items, ∀ name args, Fragment.genericCall name args ∈ item.layout emitter.printer →
    ∃ entry ∈ emitter.insts.funcs.entries, entry.genericName = name ∧ TypeExpr.sameLists entry.typeArgs args ∧
      emitter.printer.written (.genericCall name args) = entry.mangled

/-- An instantiation has a prototype before any function is defined. -/
def Prototyped (items : List Item) (entry : Instantiation) : Prop :=
  ∃ before decl after, items = before ++ .prototype ⟨entry, decl⟩ :: after ∧
    ∀ item ∈ before, item.definesFunction = false

theorem render_base (printer : Printer) (type : TypeExpr) :
    printer.render type = printer.render type.base ++ List.replicate type.pointerDepth (Text.byte '*') := by
  induction type using TypeExpr.byParts with
  | pointer elem loc ih =>
    rw [Printer.render, ih, TypeExpr.pointerDepth, List.replicate_succ', ← List.append_assoc]
    rfl
  | _ => exact (List.append_nil _).symm

theorem mangle_same {first second : List TypeExpr} (same : TypeExpr.sameLists first second) (name : Text) :
    mangle name first = mangle name second := by
  rw [TypeExpr.sameLists_iff_bare] at same
  rw [mangle, mangle, ← TypeExpr.mangledArgs_bareAll, same, TypeExpr.mangledArgs_bareAll]

theorem Complete.mangled (complete : emitter.Complete) {kind : InstKind}
    (member : entry ∈ (emitter.insts.registry kind).entries) (same : TypeExpr.sameLists entry.typeArgs args) :
    entry.mangled = mangle entry.genericName args := by
  rw [(complete.valid kind).mangled entry member]
  exact mangle_same same _

theorem typedef_mem (valid : emitter.insts.structs.Valid) (member : entry ∈ emitter.insts.structs.entries)
    (declared : (emitter.index.struct? entry.genericName).isSome) (untagged : entry.mangled ∉ emitter.tagged) :
    .typedef entry ∈ emitter.structItems := by
  have placed : entry ∈ emitter.placed :=
    List.mem_reverse.mpr ((StructOrder.mem_placed_ofRegistry valid).mpr ⟨member, declared⟩)
  have item : .typedef entry ∈ emitter.placed.filterMap (typedefItem? emitter.tagged) :=
    List.mem_filterMap.mpr ⟨entry, placed, by simp [typedefItem?, untagged]⟩
  refine List.mem_append_left _ ?_
  unfold Item.paragraph
  rw [if_neg (by simpa using List.ne_nil_of_mem item)]
  exact List.mem_append_left _ item

theorem Complete.typesBacked (complete : emitter.Complete) {items : List Item} (structs : emitter.structItems ⊆ items)
    (supported : ∀ item ∈ items, item.Supported emitter) : emitter.TypesBacked items := by
  intro item inside type fragment name args loc decl base found
  have asked : emitter.Asked .struct name args := supported item inside _ fragment trivial (.struct base (by simp [found]))
  obtain ⟨entry, member, rfl, same⟩ := complete.registered asked
  refine ⟨entry, member, rfl, same, ?_⟩
  have shown : emitter.printer.render (.applied entry.genericName args loc) =
      if emitter.tagged.contains entry.mangled then Text.concat [decl.keyword, " ", entry.mangled] else entry.mangled := by
    have found : emitter.printer.index.struct? entry.genericName = some decl := found
    rw [Printer.render, found, complete.mangled member same]
    rfl
  rw [render_base, base, shown]
  by_cases tagged : entry.mangled ∈ emitter.tagged
  · exact .inr ⟨tagged, by simp [tagged]⟩
  · exact .inl ⟨structs (typedef_mem (complete.valid .struct) member (by simp [found]) tagged), by simp [tagged]⟩

theorem Complete.callsBacked (complete : emitter.Complete) {items : List Item}
    (supported : ∀ item ∈ items, item.Supported emitter) : emitter.CallsBacked items := by
  intro item inside name args fragment
  have asked : emitter.Asked .func name args := supported item inside _ fragment trivial .func
  obtain ⟨entry, member, rfl, same⟩ := complete.registered asked
  exact ⟨entry, member, rfl, same, (complete.mangled member same).symm⟩

theorem structItems_define : ∀ item ∈ emitter.structItems, item.definesFunction = false := by
  intro item member
  rcases List.mem_append.mp member with typedef | struct
  · unfold Item.paragraph at typedef
    split at typedef
    · cases typedef
    · rcases List.mem_append.mp typedef with typedef | line
      · obtain ⟨inst, -, found⟩ := List.mem_filterMap.mp typedef
        rw [typedefItem?_eq_some found]
        rfl
      · rw [List.mem_singleton.mp line]
        rfl
  · obtain ⟨inst, -, found⟩ := List.mem_filterMap.mp struct
    obtain ⟨decl, fields, -, -, -, rfl⟩ := structItem?_eq_some found
    rfl

theorem Complete.prototyped (complete : emitter.Complete) (member : entry ∈ emitter.insts.funcs.entries) :
    Prototyped emitter.document entry := by
  obtain ⟨decl, found, fits⟩ := complete.declared entry member
  have inside : ⟨entry, decl⟩ ∈ emitter.specializedFuncs true :=
    mem_specializedFuncs.mpr ⟨member, found, fits, rfl⟩
  obtain ⟨early, late, split⟩ := List.append_of_mem (List.mem_map_of_mem (f := Item.prototype) inside)
  have early_prototypes : ∀ item ∈ early, item.definesFunction = false := by
    intro item before
    obtain ⟨func, -, rfl⟩ := List.mem_map.mp (split ▸ List.mem_append_left _ before)
    rfl
  refine ⟨[.lines (preamble emitter.settings), .lines (directives emitter.program)] ++ emitter.structItems ++ early, decl,
    late ++ [.lines "\n"] ++ (emitter.specializedFuncs true).filterMap funcItem? ++
      emitter.program.decls.filterMap plainItem?, ?_, ?_⟩
  · simp [document, funcItems, Item.paragraph, split]
  · simp only [List.forall_mem_append, List.forall_mem_cons]
    exact ⟨⟨⟨rfl, rfl, by simp⟩, structItems_define⟩, early_prototypes⟩

end Emitter

/-- When no error is reported, every reference in the C file and in the header is backed: the instantiation is
registered for exactly its arguments, and the C name that is written has its typedef or its prototype. -/
theorem references_backed (settings : ParseSettings) (file : UInt32) (content : Text) (maxDepth : Nat)
    (style : EmitSettings) (guard : Text)
    (clean : ∀ report ∈ (prepare (parseFile settings file content).program maxDepth).reports, report.isError = false) :
    let program := (parseFile settings file content).program
    let emitter : Emitter := ⟨program, (prepare program maxDepth).insts, style⟩
    let source := emitter.document
    let header := emitter.headerDocument guard
    emitter.emit.text = source.flatMap (Item.text emitter.printer) ∧
      (emitter.emitHeader guard).text = header.flatMap (Item.text emitter.printer) ∧
      (∀ items ∈ [source, header], emitter.TypesBacked items ∧ emitter.CallsBacked items) ∧
      ∀ entry ∈ emitter.insts.funcs.entries, Emitter.Prototyped source entry := by
  intro program emitter source header
  have complete : emitter.Complete := Emitter.complete_of_clean (parseFile_written settings file content) clean style
  have valid : emitter.insts.structs.Valid := complete.valid .struct
  have structs : emitter.structItems ⊆ source ∧ emitter.structItems ⊆ header := by
    constructor <;> intro item member <;> simp [source, header, Emitter.document, Emitter.headerDocument, member]
  have sourceSupported := Emitter.document_supported valid
  have headerSupported := Emitter.headerDocument_supported valid guard
  refine ⟨Emitter.emit_text emitter, Emitter.emitHeader_text emitter guard, ?_, fun entry => complete.prototyped⟩
  simp only [List.forall_mem_cons, List.not_mem_nil, false_implies, implies_true, and_true]
  exact ⟨⟨complete.typesBacked structs.1 sourceSupported, complete.callsBacked sourceSupported⟩,
    complete.typesBacked structs.2 headerSupported, complete.callsBacked headerSupported⟩

def Fragment.callee? : Fragment → Option Text
  | genericCall name _ => some name
  | _ => none

theorem Fragment.callee?_eq_some {fragment : Fragment} {name : Text} :
    fragment.callee? = some name ↔ ∃ args, fragment = genericCall name args := by
  cases fragment <;> simp [callee?]

def boxReader : Text :=
  Text.concat ["struct Box<T> \x7b T item; \x7d; T get<T>(Box<T> *box) \x7b return box->item; \x7d",
    "int use(Box<int> *box) \x7b return get<int>(box); \x7d"]

theorem boxReader_prototypes_get :
    let program := (parseFile {} 0 boxReader).program
    let emitter : Emitter := ⟨program, (prepare program 64).insts, {}⟩
    (∀ report ∈ (prepare program 64).reports, report.isError = false) ∧
      ∃ item ∈ emitter.document, ∃ args, .genericCall "get" args ∈ item.layout emitter.printer ∧
        ∃ entry ∈ emitter.insts.funcs.entries, entry.genericName = "get" ∧ TypeExpr.sameLists entry.typeArgs args ∧
          Emitter.Prototyped emitter.document entry := by
  intro program emitter
  have run := prepare_within program 64 (fun result =>
    let emitter : Emitter := ⟨program, result.insts, {}⟩
    result.reports.all (!·.isError) && emitter.document.any fun item =>
      (item.layout emitter.printer).any (·.callee? = some "get")) 4 (by decide +kernel)
  simp only [Bool.and_eq_true, List.all_eq_true, Bool.not_eq_true', List.any_eq_true, decide_eq_true_eq] at run
  obtain ⟨clean, item, inside, fragment, member, called⟩ := run
  obtain ⟨args, rfl⟩ := Fragment.callee?_eq_some.mp called
  obtain ⟨-, -, backed, prototyped⟩ := references_backed {} 0 boxReader 64 {} [] clean
  obtain ⟨entry, known, named, same, -⟩ := (backed _ List.mem_cons_self).2 item inside _ args member
  exact ⟨clean, item, inside, args, member, entry, known, named, same, prototyped entry known⟩

end GenericC
