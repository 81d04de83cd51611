import GenericC.Proofs.EmittedReferences

/-! Type parameters in specialized code. A substitution looks names up as they are written, and the qualifiers of a
type are part of its name. So a type parameter is replaced wherever it stands alone, and only there. -/

namespace GenericC

variable {params : List TypeParam}

mutual
def TypeExpr.names : TypeExpr → List Text
  | absent => []
  | named name _ => [name]
  | applied name args _ => name :: namesOfAll args
  | pointer elem _ => elem.names

def TypeExpr.namesOfAll : List TypeExpr → List Text
  | [] => []
  | type :: rest => type.names ++ namesOfAll rest
end

def unqualified (name : Text) : Text :=
  Text.joinWith " " ((name.splitByte (Text.byte ' ')).dropWhile fun word => word = "const" || word = "volatile")

theorem TypeExpr.namesOfAll_eq (types : List TypeExpr) : namesOfAll types = types.flatMap names := by
  induction types with
  | nil => rfl
  | cons type rest ih => rw [namesOfAll, ih, List.flatMap_cons]

@[simp] theorem TypeExpr.names_base (type : TypeExpr) : type.base.names = type.names := by
  induction type using TypeExpr.byParts with
  | pointer elem loc ih => exact ih
  | _ => rfl

namespace Subst

theorem mem_names_type {subst : Subst} {type : TypeExpr} {name : Text} (member : name ∈ (subst.type type).names) :
    (∃ binding ∈ subst.bindings, name ∈ binding.2.names) ∨ (name ∈ type.names ∧ subst.find? name = none) := by
  induction type using TypeExpr.byParts with
  | absent => cases member
  | named written loc =>
    rw [type_named] at member
    cases found : subst.find? written with
    | some bound =>
      rw [found] at member
      exact .inl ⟨_, subst.find?_mem found, member⟩
    | none =>
      rw [found] at member
      cases List.mem_singleton.mp member
      exact .inr ⟨member, found⟩
  | applied written args loc ih =>
    rw [type_applied] at member
    cases found : subst.find? written with
    | some bound =>
      rw [found] at member
      exact .inl ⟨_, subst.find?_mem found, member⟩
    | none =>
      rw [found, Option.getD_none, TypeExpr.names, List.mem_cons, TypeExpr.namesOfAll_eq, types,
        List.flatMap_map] at member
      rcases member with rfl | below
      · exact .inr ⟨List.mem_cons_self, found⟩
      · obtain ⟨arg, inside, below⟩ := List.mem_flatMap.mp below
        refine (ih arg inside below).imp_right fun left => ⟨List.mem_cons_of_mem _ ?_, left.2⟩
        rw [TypeExpr.namesOfAll_eq]
        exact List.mem_flatMap.mpr ⟨arg, inside, left.1⟩
  | pointer elem loc ih =>
    rw [type_pointer] at member
    exact ih member

theorem find?_ofParams_isSome {args : List TypeExpr} (fits : params.length = args.length) {name : Text}
    (member : name ∈ params.map (·.name)) : ((ofParams params args).find? name).isSome := by
  have names : ((params.map (·.name)).zip args).map Prod.fst = params.map (·.name) := List.map_fst_zip (by simp [fits])
  rw [find?, ofParams, List.lookup_isSome_iff]
  rw [← names] at member
  obtain ⟨binding, inside, rfl⟩ := List.mem_map.mp member
  exact ⟨binding, inside, beq_self_eq_true _⟩

end Subst

def Fragment.types : Fragment → List TypeExpr
  | .type written => [written]
  | genericCall _ args => args
  | _ => []

namespace Item

/-- The instantiation that an item is written for, and the declaration that it specializes. -/
def specialization? : Item → Option (Instantiation × Node × List TypeParam)
  | struct inst decl _ => some (inst, decl.toNode, decl.typeParams)
  | prototype func => some (func.inst, func.decl.toNode, func.decl.typeParams)
  | function func _ => some (func.inst, func.decl.toNode, func.decl.typeParams)
  | _ => none

def types (printer : Printer) (item : Item) : List TypeExpr := (item.layout printer).flatMap Fragment.types

end Item

/-- A type parameter is left in a type only if it is qualified where it is written, or given as an argument. -/
theorem Fragment.From.names {printer : Printer} {tree : Node} {fragment : Fragment}
    (source : fragment.From printer tree) {args : List TypeExpr} (subst : printer.subst = .ofParams params args)
    (fits : params.length = args.length) {type : TypeExpr} (member : type ∈ fragment.types) {name : Text}
    (named : name ∈ type.names) (param : unqualified name ∈ params.map (·.name)) :
    (∃ arg ∈ args, name ∈ arg.names) ∨
      (name ≠ unqualified name ∧ ∃ written ∈ tree.types, name ∈ written.names) := by
  obtain ⟨label, label_mem, written, type_mem, left⟩ : ∃ label ∈ tree.labels, ∃ written ∈ label.types,
      name ∈ (printer.subst.type written).names := by
    cases source with
    | @type label written _ label_mem type_mem base =>
      cases List.mem_singleton.mp member
      refine ⟨label, label_mem, written, type_mem, ?_⟩
      rw [← TypeExpr.names_base, ← base, TypeExpr.names_base]
      exact named
    | @call label label_mem call typed declared =>
      obtain ⟨written, type_mem, rfl⟩ := List.mem_map.mp member
      exact ⟨label, label_mem, written, type_mem, named⟩
  rw [subst] at left
  rcases Subst.mem_names_type left with ⟨binding, bound, inside⟩ | ⟨kept, missing⟩
  · exact .inl ⟨binding.2, (List.of_mem_zip bound).2, inside⟩
  · refine .inr ⟨fun same => ?_, written, List.mem_flatMap.mpr ⟨label, label_mem, type_mem⟩, kept⟩
    rw [← same] at param
    have replaced := Subst.find?_ofParams_isSome fits param
    rw [missing] at replaced
    cases replaced

namespace Emitter

/-- An item is written for a registered instantiation, from the declaration of its generic with the arguments put in. -/
structure Specializes (emitter : Emitter) (item : Item) (inst : Instantiation) (tree : Node) (params : List TypeParam) :
    Prop where
  member : inst ∈ (emitter.insts.registry inst.kind).entries
  declared : emitter.index.declaration? inst.kind inst.genericName = some (tree, params)
  fits : params.length = inst.typeArgs.length
  covered : (emitter.printer.withSubst (.ofParams params inst.typeArgs)).CoveredBy tree (item.layout emitter.printer)

variable {emitter : Emitter}

theorem Writes.specializes {item : Item} (written : emitter.Writes item)
    (kinds : ∀ kind, ∀ entry ∈ (emitter.insts.registry kind).entries, entry.kind = kind) {inst : Instantiation}
    {tree : Node} (found : item.specialization? = some (inst, tree, params)) :
    emitter.Specializes item inst tree params := by
  cases written with
  | @struct _ decl fields member declared body fits =>
    cases found
    have kind : inst.kind = .struct := kinds .struct inst member
    exact ⟨by rw [kind]; exact member, by simp [kind, Index.declaration?, declared], fits,
      Printer.coveredBy_structBodyLayout body inst.mangled⟩
  | @prototype bodies func member =>
    cases found
    obtain ⟨inside, declared, fits, -⟩ := mem_specializedFuncs.mp member
    have kind : func.inst.kind = .func := kinds .func func.inst inside
    exact ⟨by rw [kind]; exact inside, by simp [kind, Index.declaration?, declared], fits,
      Printer.coveredBy_prototypeLayout func.decl func.inst.mangled⟩
  | @function bodies func body member given =>
    cases found
    obtain ⟨inside, declared, fits, -⟩ := mem_specializedFuncs.mp member
    have kind : func.inst.kind = .func := kinds .func func.inst inside
    exact ⟨by rw [kind]; exact inside, by simp [kind, Index.declaration?, declared], fits,
      Printer.coveredBy_functionLayout given func.inst.mangled⟩
  | _ => cases found

end Emitter

/-- In the C file and in the header, whatever is written for an instantiation names a type parameter of its generic
only where the parameter is written with a qualifier in the declaration, or where the type arguments name it. -/
theorem left_params_qualified (settings : ParseSettings) (file : UInt32) (content : Text) (maxDepth : Nat)
    (style : EmitSettings) (guard : Text) :
    let program := (parseFile settings file content).program
    let emitter : Emitter := ⟨program, (prepare program maxDepth).insts, style⟩
    emitter.emit.text = emitter.document.flatMap (Item.text emitter.printer) ∧
      (emitter.emitHeader guard).text = (emitter.headerDocument guard).flatMap (Item.text emitter.printer) ∧
      ∀ item ∈ emitter.document ++ emitter.headerDocument guard, ∀ inst tree params,
        item.specialization? = some (inst, tree, params) →
        inst ∈ (emitter.insts.registry inst.kind).entries ∧
          emitter.index.declaration? inst.kind inst.genericName = some (tree, params) ∧
          ∀ type ∈ item.types emitter.printer, ∀ name ∈ type.names, unqualified name ∈ params.map (·.name) →
            (∃ arg ∈ inst.typeArgs, name ∈ arg.names) ∨
              (name ≠ unqualified name ∧ ∃ written ∈ tree.types, name ∈ written.names) := by
  intro program emitter
  obtain ⟨walk, result, sound, -⟩ := prepare_walk program maxDepth
  have insts : emitter.insts = walk.insts := congrArg PassResult.insts result
  have kinds : ∀ kind, ∀ entry ∈ (emitter.insts.registry kind).entries, entry.kind = kind := by
    intro kind entry member
    rw [insts] at member
    exact ((sound.valid kind).kind entry member).trans (sound.kind kind)
  have valid : emitter.insts.structs.Valid := by
    rw [insts]
    exact sound.valid .struct
  refine ⟨emitter.emit_text, emitter.emitHeader_text guard, fun item member inst tree params found => ?_⟩
  have written : emitter.Writes item := (List.mem_append.mp member).elim (Emitter.writes_document valid item)
    (Emitter.writes_headerDocument valid guard item)
  have specializes := written.specializes kinds found
  refine ⟨specializes.member, specializes.declared, fun type inside name named param => ?_⟩
  obtain ⟨fragment, placed, below⟩ := List.mem_flatMap.mp inside
  have reference : fragment.IsReference := by
    cases fragment with
    | type type => trivial
    | genericCall name args => trivial
    | _ => cases below
  exact (specializes.covered fragment placed reference).names rfl specializes.fits below named param

/-- An item names a type parameter that the arguments do not name. -/
def Item.keepsParam (printer : Printer) (item : Item) : Bool :=
  item.specialization?.any fun (inst, _, params) => (item.types printer).any fun type => type.names.any fun name =>
    (params.map (·.name)).contains (unqualified name) && !(inst.typeArgs.any (·.names.contains name))

theorem Item.keepsParam_iff {printer : Printer} {item : Item} :
    item.keepsParam printer ↔ ∃ inst tree params, item.specialization? = some (inst, tree, params) ∧
      ∃ type ∈ item.types printer, ∃ name ∈ type.names, unqualified name ∈ params.map (·.name) ∧
        ¬ ∃ arg ∈ inst.typeArgs, name ∈ arg.names := by
  simp [keepsParam, Option.any_eq_true]

def constBox : Text := "struct Box<T> \x7b const T item; \x7d; Box<int> box;"

private theorem constBox_run :
    let parsed := parseFile {} 0 constBox
    let emitter : Emitter := ⟨parsed.program, (prepare parsed.program 64).insts, {}⟩
    parsed.reports = [] ∧
      ((prepare parsed.program 64).reports.isEmpty && emitter.document.any (·.keepsParam emitter.printer)) = true := by
  refine ⟨?_, prepare_within _ _ (fun result =>
    let emitter : Emitter := ⟨(parseFile {} 0 constBox).program, result.insts, {}⟩
    result.reports.isEmpty && emitter.document.any (·.keepsParam emitter.printer)) 2 ?_⟩
  · decide +kernel
  · decide +kernel

/-- A parameter with a qualifier is left in the text of a program with no fault. -/
theorem constBox_keeps_param :
    let parsed := parseFile {} 0 constBox
    let emitter : Emitter := ⟨parsed.program, (prepare parsed.program 64).insts, {}⟩
    parsed.reports = [] ∧ (prepare parsed.program 64).reports = [] ∧
      ∃ item ∈ emitter.document, ∃ inst tree params, item.specialization? = some (inst, tree, params) ∧
        ∃ type ∈ item.types emitter.printer, ∃ name ∈ type.names, unqualified name ∈ params.map (·.name) ∧
          ¬ ∃ arg ∈ inst.typeArgs, name ∈ arg.names := by
  intro parsed emitter
  obtain ⟨clean, run⟩ := constBox_run
  obtain ⟨quiet, kept⟩ := Bool.and_eq_true_iff.mp run
  obtain ⟨item, member, keeps⟩ := List.any_eq_true.mp kept
  exact ⟨clean, List.isEmpty_iff.mp quiet, item, member, Item.keepsParam_iff.mp keeps⟩

theorem constBox_left_qualified :
    let program := (parseFile {} 0 constBox).program
    let emitter : Emitter := ⟨program, (prepare program 64).insts, {}⟩
    ∃ item ∈ emitter.document ++ emitter.headerDocument [], ∃ inst tree params,
      item.specialization? = some (inst, tree, params) ∧ ∃ type ∈ item.types emitter.printer, ∃ name ∈ type.names,
        unqualified name ∈ params.map (·.name) ∧ name ≠ unqualified name ∧ ∃ written ∈ tree.types, name ∈ written.names := by
  intro program emitter
  obtain ⟨item, member, keeps⟩ := List.any_eq_true.mp (Bool.and_eq_true_iff.mp constBox_run.2).2
  obtain ⟨inst, tree, params, found, type, inside, name, named, param, fresh⟩ := Item.keepsParam_iff.mp keeps
  have member := List.mem_append_left (emitter.headerDocument []) member
  obtain ⟨-, -, left⟩ := (left_params_qualified {} 0 constBox 64 {} []).2.2 item member inst tree params found
  have qualified := (left type inside name named param).resolve_left fresh
  exact ⟨item, member, inst, tree, params, found, type, inside, name, named, param, qualified⟩

end GenericC
