import GenericC.Proofs.EmittedReferences

/-! The C names that a file gives to instantiations, beside the names that a program has on its own. Two instantiations
never share a name, but nothing keeps a program from declaring a name that an instantiation gets. It happens exactly when
an own name is the C name of an instantiation that is needed, so never as long as no own name begins with the name of a
generic and an underscore. -/

namespace GenericC

variable {kind : InstKind}

/-- The functions, variables, typedefs and constants that a declaration has on its own. -/
def Decl.ownNames : Decl → List Text
  | .function decl => if decl.isGeneric then [] else [decl.name]
  | .vars decl => decl.vars.map (·.name)
  | .typedef decl => [decl.name]
  | .enum decl => decl.items.map (·.name)
  | _ => []

/-- The tags of structs, unions and enums that a declaration has on its own. -/
def Decl.ownTags : Decl → List Text
  | .struct decl => if decl.isGeneric then [] else [decl.name]
  | .typedef decl =>
    match decl.target with
    | .body body => [body.name]
    | .type _ => []
  | .enum decl => [decl.name]
  | _ => []

def Program.ownNames (program : Program) : List Text := program.decls.flatMap Decl.ownNames

def Program.ownTags (program : Program) : List Text := program.decls.flatMap Decl.ownTags

namespace Item

def inst? : Item → Option Instantiation
  | typedef inst => some inst
  | struct inst _ _ => some inst
  | prototype func => some func.inst
  | function func _ => some func.inst
  | _ => none

/-- The names of types and functions that an item gives to an instantiation. -/
def names : Item → List Text
  | typedef inst => [inst.mangled]
  | prototype func => [func.inst.mangled]
  | function func _ => [func.inst.mangled]
  | _ => []

def tags : Item → List Text
  | typedef inst => [inst.mangled]
  | struct inst _ _ => [inst.mangled]
  | _ => []

end Item

def Program.generics (program : Program) : InstKind → List Text
  | .struct => (Index.ofProgram program).structs.map (·.name)
  | .func => (Index.ofProgram program).funcs.map (·.name)

/-- No own name begins with the name of a generic and an underscore, and no own tag with that of a generic struct. -/
structure Program.KeepsApart (program : Program) : Prop where
  names : ∀ generic ∈ program.generics .struct ++ program.generics .func, ∀ name ∈ program.ownNames,
    ¬ (generic ++ [Text.byte '_']) <+: name
  tags : ∀ generic ∈ program.generics .struct, ∀ tag ∈ program.ownTags, ¬ (generic ++ [Text.byte '_']) <+: tag

theorem mangle_prefix (name : Text) {args : List TypeExpr} (some : args ≠ []) :
    (name ++ [Text.byte '_']) <+: mangle name args := by
  cases args with
  | nil => exact absurd rfl some
  | cons first rest => exact ⟨first.mangled ++ TypeExpr.mangledArgs rest, by simp [mangle, TypeExpr.mangledArgs]⟩

namespace Needed

variable {program : Program} {name : Text} {args : List TypeExpr}

theorem uses (needed : Needed program kind name args) :
    ∃ tree subst, Node.Uses (.ofProgram program) subst tree kind name args := by
  cases needed with
  | written member plain uses fits | opened below declared uses fits => exact ⟨_, _, uses⟩

theorem struct_declared (needed : Needed program .struct name args) :
    ((Index.ofProgram program).struct? name).isSome := by
  obtain ⟨tree, subst, uses⟩ := needed.uses
  cases uses with
  | struct label_mem type_mem within declared => exact declared

theorem generic (needed : Needed program kind name args) : name ∈ program.generics kind ∧ args ≠ [] := by
  have fits := needed.fits
  cases kind with
  | struct =>
    obtain ⟨decl, found⟩ := Option.isSome_iff_exists.mp needed.struct_declared
    obtain ⟨member, rfl⟩ := Index.struct?_mem found
    have generic := (Index.mem_structs member).2
    refine ⟨List.mem_map_of_mem member, ?_⟩
    rintro rfl
    have bare : decl.typeParams = [] := by simpa [Index.Fits, Index.paramsOf, found] using fits
    simp [StructDecl.isGeneric, bare] at generic
  | func =>
    obtain ⟨decl, found⟩ := needed.func_declared
    obtain ⟨member, rfl⟩ := Index.func?_mem found
    have generic := (Index.mem_funcs member).2
    refine ⟨List.mem_map_of_mem member, ?_⟩
    rintro rfl
    have bare : decl.typeParams = [] := by simpa [Index.Fits, Index.paramsOf, found] using fits
    simp [FuncDecl.isGeneric, bare] at generic

end Needed

namespace Emitter

variable {emitter : Emitter}

theorem Writes.registered {item : Item} (written : emitter.Writes item) {name : Text} (given : name ∈ item.names) :
    ∃ kind, ∃ inst ∈ (emitter.insts.registry kind).entries, item.inst? = some inst ∧ inst.mangled = name ∧
      (kind = .struct → name ∉ emitter.tagged) := by
  cases written with
  | @typedef inst member untagged =>
    cases List.mem_singleton.mp given
    exact ⟨.struct, inst, member, rfl, rfl, fun _ => untagged⟩
  | @prototype bodies func member | @function bodies func body member found =>
    cases List.mem_singleton.mp given
    exact ⟨.func, func.inst, (mem_specializedFuncs.mp member).1, rfl, rfl, fun wrong => nomatch wrong⟩
  | _ => cases given

theorem Writes.tagged_struct {item : Item} (written : emitter.Writes item) {tag : Text} (given : tag ∈ item.tags) :
    ∃ inst ∈ emitter.insts.structs.entries, inst.mangled = tag := by
  cases written with
  | @typedef inst member untagged | @struct inst decl fields member declared body fits =>
    cases List.mem_singleton.mp given
    exact ⟨inst, member, rfl⟩
  | _ => cases given

theorem mem_tagged (valid : ∀ kind, (emitter.insts.registry kind).Valid) {name : Text} :
    name ∈ emitter.tagged ↔ ∀ kind, ∃ inst ∈ (emitter.insts.registry kind).entries, inst.mangled = name := by
  have func : (emitter.insts.funcs.findMangled? name).isSome = true ↔ ∃ inst ∈ emitter.insts.funcs.entries, inst.mangled = name := by
    rw [Option.isSome_iff_exists]
    exact exists_congr fun inst => (valid .func).findMangled?_eq_some
  simp only [tagged, List.mem_filter, List.mem_map, func]
  constructor
  · rintro ⟨struct, func⟩ kind
    cases kind with
    | struct => exact struct
    | func => exact func
  · exact fun both => ⟨both .struct, both .func⟩

theorem unique_name (valid : ∀ kind, (emitter.insts.registry kind).Valid) {first second : Instantiation}
    (here : first ∈ (emitter.insts.registry kind).entries) (there : second ∈ (emitter.insts.registry kind).entries)
    (same : first.mangled = second.mangled) : first = second := by
  have found := ((valid kind).findMangled?_eq_some).mpr ⟨here, same⟩
  rw [((valid kind).findMangled?_eq_some).mpr ⟨there, rfl⟩] at found
  exact (Option.some.inj found).symm

theorem Writes.same_inst (valid : ∀ kind, (emitter.insts.registry kind).Valid) {first second : Item}
    (here : emitter.Writes first) (there : emitter.Writes second) {name : Text} (one : name ∈ first.names)
    (other : name ∈ second.names) : first.inst? = second.inst? := by
  obtain ⟨kind, inst, member, own, named, untagged⟩ := here.registered one
  obtain ⟨kind', inst', member', own', named', untagged'⟩ := there.registered other
  rw [own, own']
  have shared {struct func : Instantiation} (left : struct ∈ emitter.insts.structs.entries)
      (right : func ∈ emitter.insts.funcs.entries) (leftNamed : struct.mangled = name) (rightNamed : func.mangled = name) :
      name ∈ emitter.tagged := by
    refine (mem_tagged valid).mpr fun kind => ?_
    cases kind with
    | struct => exact ⟨struct, left, leftNamed⟩
    | func => exact ⟨func, right, rightNamed⟩
  cases kind with
  | struct =>
    cases kind' with
    | struct => exact congrArg some (unique_name valid member member' (named.trans named'.symm))
    | func => exact absurd (shared member member' named named') (untagged rfl)
  | func =>
    cases kind' with
    | struct => exact absurd (shared member' member named' named) (untagged' rfl)
    | func => exact congrArg some (unique_name valid member member' (named.trans named'.symm))

theorem Complete.needed_registered (complete : emitter.Complete) {name : Text} {args : List TypeExpr}
    (needed : Needed emitter.program kind name args) :
    ∃ entry ∈ (emitter.insts.registry kind).entries, entry.genericName = name ∧
      TypeExpr.sameLists entry.typeArgs args := by
  induction needed with
  | written member plain uses fits => exact complete.registered ⟨_, _, .plain member plain, uses⟩
  | @opened owner types ownerKind node params kind name args below declared uses fits ih =>
    obtain ⟨parent, inside, rfl, same⟩ := ih
    rw [TypeExpr.sameLists_iff_bare] at same
    obtain ⟨other, used, equal⟩ := uses.same (Subst.same_ofParams params same.symm)
    obtain ⟨entry, member, named, close⟩ := complete.registered ⟨_, _, .specialized inside declared, used⟩
    refine ⟨entry, member, named, ?_⟩
    rw [TypeExpr.sameLists_iff_bare] at close ⊢
    exact close.trans equal.symm

theorem Complete.named (complete : emitter.Complete) {entry : Instantiation}
    (member : entry ∈ (emitter.insts.registry kind).entries)
    (declared : kind = .struct → (emitter.index.struct? entry.genericName).isSome) :
    ∃ item ∈ emitter.document, entry.mangled ∈ item.names := by
  have func {entry : Instantiation} (member : entry ∈ emitter.insts.funcs.entries) :
      ∃ item ∈ emitter.document, entry.mangled ∈ item.names := by
    obtain ⟨before, decl, after, split, -⟩ := complete.prototyped member
    exact ⟨.prototype ⟨entry, decl⟩, split ▸ List.mem_append_right _ List.mem_cons_self, List.mem_singleton_self _⟩
  cases kind with
  | func => exact func member
  | struct =>
    by_cases tagged : entry.mangled ∈ emitter.tagged
    · obtain ⟨other, inside, same⟩ := (mem_tagged complete.valid).mp tagged .func
      exact same ▸ func inside
    · have typedef := typedef_mem (complete.valid .struct) member (declared rfl) tagged
      exact ⟨.typedef entry, by simp [document, typedef], List.mem_singleton_self _⟩

end Emitter

/-- Where no error is reported, an own name is also given to an instantiation exactly if it is the C name of one that is
needed, and an own tag only then. Two instantiations never get the same name. Own names that do not begin with the name of
a generic and an underscore are never given to an instantiation. -/
theorem own_names_met_by_needed (settings : ParseSettings) (file : UInt32) (content : Text) (maxDepth : Nat)
    (style : EmitSettings) (guard : Text)
    (clean : ∀ report ∈ (prepare (parseFile settings file content).program maxDepth).reports, report.isError = false) :
    let program := (parseFile settings file content).program
    let emitter : Emitter := ⟨program, (prepare program maxDepth).insts, style⟩
    (∀ name ∈ program.ownNames, (∃ item ∈ emitter.document, name ∈ item.names) ↔
      ∃ kind generic args, Needed program kind generic args ∧ mangle generic args = name) ∧
    (∀ tag ∈ program.ownTags, (∃ item ∈ emitter.document, tag ∈ item.tags) →
      ∃ generic args, Needed program .struct generic args ∧ mangle generic args = tag) ∧
    ∀ items ∈ [emitter.document, emitter.headerDocument guard],
      (∀ first ∈ items, ∀ second ∈ items, ∀ name ∈ first.names, name ∈ second.names → first.inst? = second.inst?) ∧
      (program.KeepsApart → ∀ item ∈ items, (∀ name ∈ item.names, name ∉ program.ownNames) ∧
        ∀ tag ∈ item.tags, tag ∉ program.ownTags) := by
  intro program emitter
  have written : program.Written := parseFile_written settings file content
  have complete : emitter.Complete := Emitter.complete_of_clean written clean style
  have needed {kind : InstKind} {inst : Instantiation} (member : inst ∈ (emitter.insts.registry kind).entries) :
      Needed program kind inst.genericName inst.typeArgs ∧ mangle inst.genericName inst.typeArgs = inst.mangled := by
    obtain ⟨walk, result, sound, -⟩ := prepare_walk program maxDepth
    have insts : emitter.insts = walk.result.insts := congrArg PassResult.insts result
    rw [insts] at member
    exact ⟨sound.needed kind _ (List.mem_map.mpr ⟨inst, member, rfl⟩), ((sound.valid kind).mangled inst member).symm⟩
  have source := Emitter.writes_document (complete.valid .struct)
  have header := Emitter.writes_headerDocument (complete.valid .struct) guard
  refine ⟨?_, ?_, fun items listed => ?_⟩
  · intro name own
    constructor
    · rintro ⟨item, inside, given⟩
      obtain ⟨kind, inst, member, -, rfl, -⟩ := (source item inside).registered given
      exact ⟨kind, inst.genericName, inst.typeArgs, needed member⟩
    · rintro ⟨kind, generic, args, wanted, rfl⟩
      obtain ⟨entry, member, rfl, same⟩ := complete.needed_registered wanted
      rw [← complete.mangled member same]
      refine complete.named member ?_
      rintro rfl
      exact wanted.struct_declared
  · rintro tag own ⟨item, inside, given⟩
    obtain ⟨inst, member, rfl⟩ := (source item inside).tagged_struct given
    have member : inst ∈ (emitter.insts.registry .struct).entries := member
    exact ⟨inst.genericName, inst.typeArgs, needed member⟩
  · have written : ∀ item ∈ items, emitter.Writes item := by
      rcases List.mem_cons.mp listed with rfl | last
      · exact source
      · cases List.mem_singleton.mp last
        exact header
    refine ⟨fun first here second there name => (written first here).same_inst complete.valid (written second there), ?_⟩
    refine fun apart item inside => ⟨fun name given own => ?_, fun tag given own => ?_⟩
    · obtain ⟨kind, inst, member, -, rfl, -⟩ := (written item inside).registered given
      obtain ⟨wanted, mangled⟩ := needed member
      obtain ⟨generic, typed⟩ := wanted.generic
      have listed : inst.genericName ∈ program.generics .struct ++ program.generics .func := by
        cases kind with
        | struct => exact List.mem_append_left _ generic
        | func => exact List.mem_append_right _ generic
      exact apart.names _ listed _ own (mangled ▸ mangle_prefix _ typed)
    · obtain ⟨inst, member, rfl⟩ := (written item inside).tagged_struct given
      have member : inst ∈ (emitter.insts.registry .struct).entries := member
      obtain ⟨wanted, mangled⟩ := needed member
      obtain ⟨generic, typed⟩ := wanted.generic
      exact apart.tags _ generic _ own (mangled ▸ mangle_prefix _ typed)

/-- The reader of boxes keeps apart: its own function is not given to an instantiation, and the name of the box is. -/
theorem boxReader_keeps_apart :
    let program := (parseFile {} 0 boxReader).program
    let emitter : Emitter := ⟨program, (prepare program 64).insts, {}⟩
    (∀ report ∈ (prepare program 64).reports, report.isError = false) ∧ program.KeepsApart ∧
      (∃ item ∈ emitter.document, Text.ofString "Box_int" ∈ item.names) ∧ Text.ofString "use" ∈ program.ownNames ∧
      ∀ item ∈ emitter.document, Text.ofString "use" ∉ item.names := by
  intro program emitter
  have run := prepare_within program 64 (fun result =>
    let emitter : Emitter := ⟨program, result.insts, {}⟩
    result.reports.all (!·.isError) && emitter.document.any fun item => item.names.contains (Text.ofString "Box_int")) 4
    (by decide +kernel)
  simp only [Bool.and_eq_true, List.all_eq_true, Bool.not_eq_true', List.any_eq_true, List.contains_iff_mem] at run
  obtain ⟨clean, box⟩ := run
  have apart : program.KeepsApart := ⟨by decide +kernel, by decide +kernel⟩
  have own : Text.ofString "use" ∈ program.ownNames := by decide +kernel
  obtain ⟨-, -, both⟩ := own_names_met_by_needed {} 0 boxReader 64 {} [] clean
  exact ⟨clean, apart, box, own, fun item inside given =>
    ((both _ List.mem_cons_self).2 apart item inside).1 _ given own⟩

def boxBesideInt : Text :=
  "struct Box<T> \x7b T v; \x7d; struct Box_int \x7b char c; \x7d; int Box_int; Box<int> b;"

/-- The box of an `int` gets the name of a variable and the tag of a struct, and nothing is reported. -/
theorem boxBesideInt_clashes_unreported :
    let parsed := parseFile {} 0 boxBesideInt
    let result := prepare parsed.program 64
    let emitter : Emitter := ⟨parsed.program, result.insts, {}⟩
    let clash := Text.ofString "Box_int"
    (parsed.reports = [] ∧ result.reports = [] ∧ emitter.emit.reports = []) ∧
      (clash ∈ parsed.program.ownNames ∧ ∃ item ∈ emitter.document, clash ∈ item.names) ∧
      clash ∈ parsed.program.ownTags ∧ ∃ item ∈ emitter.document, clash ∈ item.tags := by
  intro parsed result emitter clash
  have run := prepare_within parsed.program 64 (fun result =>
    let emitter : Emitter := ⟨parsed.program, result.insts, {}⟩
    result.reports.isEmpty && emitter.emit.reports.isEmpty &&
      emitter.document.any fun item => item.names.contains clash && item.tags.contains clash) 4 (by decide +kernel)
  simp only [Bool.and_eq_true, List.isEmpty_iff, List.any_eq_true, List.contains_iff_mem] at run
  obtain ⟨⟨prepared, emitted⟩, item, inside, named, tagged⟩ := run
  exact ⟨⟨by decide +kernel, prepared, emitted⟩, ⟨by decide +kernel, item, inside, named⟩, by decide +kernel,
    item, inside, tagged⟩

end GenericC
