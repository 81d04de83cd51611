import GenericC.Proofs.OriginChains

/-! Type arguments come first. When a type is met, the generic structs in its arguments are asked for before the type itself,
and the type arguments of a call before the function. So an instantiation is never registered before those that
its own arguments are made of, also where the arguments only came about when type parameters were replaced. -/

namespace GenericC

/-- A declared generic struct with the right number of arguments stands in one of these types, at any depth. -/
structure Index.Carries (index : Index) (types : List TypeExpr) (name : Text) (args : List TypeExpr) : Prop where
  within : ∃ type ∈ types, ∃ loc, (TypeExpr.applied name args loc).Within type
  declared : (index.struct? name).isSome
  fits : index.Fits .struct name args

/-- The structs that a use carries in its arguments were met before. -/
def Use.Ready (index : Index) (before : List Use) (use : Use) : Prop :=
  ∀ ⦃name args⦄, index.Carries use.args name args → ∃ other ∈ before, other.kind = .struct ∧ other.name = name ∧ other.args = args

/-- Each use is ready when it is met, given those that were met before. -/
def InnerFirst (index : Index) : (before uses : List Use) → Prop
  | _, [] => True
  | before, use :: rest => use.Ready index before ∧ InnerFirst index (before ++ [use]) rest

namespace InnerFirst

variable {index : Index}

theorem mono {before more uses : List Use} (ordered : InnerFirst index before uses) (grown : before ⊆ more) :
    InnerFirst index more uses := by
  induction uses generalizing before more with
  | nil => trivial
  | cons use rest ih =>
    refine ⟨fun name args carries => ?_, ih ordered.2 (List.append_subset.mpr ⟨?_, List.subset_append_right _ _⟩)⟩
    · obtain ⟨other, member, found⟩ := ordered.1 carries
      exact ⟨other, grown member, found⟩
    · exact fun _ old => List.mem_append_left _ (grown old)

theorem append {before first second : List Use} (early : InnerFirst index before first)
    (late : InnerFirst index (before ++ first) second) : InnerFirst index before (first ++ second) := by
  induction first generalizing before with
  | nil => simpa using late
  | cons use rest ih => exact ⟨early.1, ih early.2 (by simpa using late)⟩

theorem flatMap {α : Type} {items : List α} {uses : α → List Use} (each : ∀ item ∈ items, InnerFirst index [] (uses item)) :
    InnerFirst index [] (items.flatMap uses) := by
  induction items with
  | nil => trivial
  | cons item rest ih =>
    rw [List.forall_mem_cons] at each
    rw [List.flatMap_cons]
    exact each.1.append ((ih each.2).mono (List.nil_subset _))

end InnerFirst

variable {index : Index}

theorem TypeExpr.uses_innerFirst (site : Span) (type : TypeExpr) : InnerFirst index [] (type.uses index site) := by
  induction type using TypeExpr.byParts with
  | absent | named name loc => trivial
  | pointer elem loc ih => exact ih
  | applied name args loc ih =>
    rw [uses, usesOfAll_eq]
    refine (InnerFirst.flatMap ih).append ?_
    split
    · refine ⟨fun inner types carries => ?_, trivial⟩
      obtain ⟨type, member, loc, within⟩ := carries.within
      exact ⟨⟨.struct, inner, types, site⟩, List.mem_flatMap.mpr ⟨type, member, TypeExpr.mem_uses.mpr
        ⟨rfl, rfl, carries.declared, loc, within⟩⟩, rfl, rfl, rfl⟩
    · trivial

theorem NodeLabel.uses_innerFirst (subst : Subst) (label : NodeLabel) : InnerFirst index [] (label.uses index subst) := by
  have inTypes : InnerFirst index [] (label.types.flatMap fun type => (subst.type type).uses index (label.siteOf type)) :=
    .flatMap fun type _ => TypeExpr.uses_innerFirst _ _
  unfold NodeLabel.uses
  dsimp only
  split
  · refine inTypes.append ⟨fun name args carries => ?_, trivial⟩
    obtain ⟨type, member, loc, within⟩ := carries.within
    obtain ⟨written, inside, rfl⟩ := List.mem_map.mp member
    exact ⟨⟨.struct, name, args, label.siteOf written⟩, List.mem_flatMap.mpr ⟨written, inside, TypeExpr.mem_uses.mpr
      ⟨rfl, rfl, carries.declared, loc, within⟩⟩, rfl, rfl, rfl⟩
  · exact inTypes

theorem Node.uses_innerFirst (subst : Subst) (tree : Node) : InnerFirst index [] (tree.uses index subst) :=
  .flatMap fun label _ => label.uses_innerFirst subst

/-- Of instantiations, the latest first, each was created after the structs in its type arguments. -/
def Founded (index : Index) : List Instantiation → Prop
  | [] => True
  | inst :: earlier =>
    (∀ ⦃name args⦄, index.Carries inst.typeArgs name args → ∃ core ∈ earlier, core.kind = .struct ∧ core.genericName = name ∧
      TypeExpr.listKey core.typeArgs = TypeExpr.listKey args) ∧ Founded index earlier

theorem Founded.split {later earlier : List Instantiation} {inst : Instantiation}
    (founded : Founded index (later ++ inst :: earlier)) {name : Text} {args : List TypeExpr}
    (carries : index.Carries inst.typeArgs name args) :
    ∃ core ∈ earlier, core.kind = .struct ∧ core.genericName = name ∧
      TypeExpr.listKey core.typeArgs = TypeExpr.listKey args := by
  induction later with
  | nil => exact founded.1 carries
  | cons first later ih => exact ih founded.2

namespace Walk

/-- As long as no use was turned away, type arguments were created first. -/
structure Layered (program : Program) (maxDepth : Nat) (walk : Walk) : Prop where
  sound : walk.Sound program
  traced : walk.Traced program maxDepth
  founded : walk.Quiet → Founded (.ofProgram program) walk.latest

variable {program : Program} {maxDepth : Nat} {walk : Walk}

theorem Traced.has_latest (traced : walk.Traced program maxDepth) {kind : InstKind} {name : Text} {args : List TypeExpr}
    (has : walk.Has kind name args) : ∃ core ∈ walk.latest, core.kind = kind ∧ core.genericName = name ∧
      TypeExpr.listKey core.typeArgs = TypeExpr.listKey args := by
  obtain ⟨head, member, named, key⟩ := has
  obtain ⟨entry, inside, rfl⟩ := List.mem_map.mp member
  refine ⟨entry.core, traced.mem_latest.mpr ⟨kind, List.mem_map_of_mem inside⟩, ?_, named, key⟩
  exact ((traced.inStep.valid kind).kind entry inside).trans (traced.inStep.kind kind)

/-- A request for a use whose arguments were asked for, and got their answers. -/
theorem Layered.request (layered : walk.Layered program maxDepth) {user : User} {use : Use} {before : List Use}
    (answered : walk.Quiet → ∀ other ∈ before, walk.Answers program other.kind other.name other.args)
    (ready : use.Ready (.ofProgram program) before) (source : Derived program walk.latest (use.core user))
    (needed : (Index.ofProgram program).Fits use.kind use.name use.args → Needed program use.kind use.name use.args) :
    (walk.request (.ofProgram program) maxDepth user use).Layered program maxDepth := by
  obtain ⟨sound, grows, -⟩ := request_passed layered.sound needed maxDepth user
  refine ⟨sound, (layered.traced.request source).1, fun quiet => ?_⟩
  have founded := layered.founded (grows.quiet quiet)
  rcases request_effect (.ofProgram program) maxDepth layered.traced.inStep user use with ⟨-, idle⟩ | registers
  · rw [latest, idle.created]
    exact founded
  · obtain ⟨inst, recorded, core⟩ := registers.recorded
    rw [latest, recorded, List.map_cons, core]
    refine ⟨fun name args carries => ?_, founded⟩
    obtain ⟨other, member, kind, rfl, rfl⟩ := ready carries
    have has := (answered (grows.quiet quiet) other member).has (kind ▸ carries.fits)
    rw [kind] at has
    exact layered.traced.has_latest has

theorem Layered.requests (layered : walk.Layered program maxDepth) {user : User} {before uses : List Use}
    (answered : walk.Quiet → ∀ other ∈ before, walk.Answers program other.kind other.name other.args)
    (ordered : InnerFirst (.ofProgram program) before uses)
    (source : ∀ use ∈ uses, Derived program walk.latest (use.core user))
    (needed : ∀ use ∈ uses, (Index.ofProgram program).Fits use.kind use.name use.args →
      Needed program use.kind use.name use.args) :
    (uses.foldl (Walk.request (.ofProgram program) maxDepth user) walk).Layered program maxDepth := by
  induction uses generalizing walk before with
  | nil => exact layered
  | cons use rest ih =>
    rw [List.forall_mem_cons] at source needed
    obtain ⟨-, grows, answers⟩ := request_passed layered.sound needed.1 maxDepth user
    have next := layered.request answered ordered.1 source.1 needed.1
    refine ih next (fun quiet => List.forall_mem_append.mpr ⟨fun other member => ?_, ?_⟩) ordered.2 ?_ needed.2
    · exact (answered (grows.quiet quiet) other member).mono grows
    · exact List.forall_mem_singleton.mpr (answers quiet)
    · exact fun other member => (source.2 other member).mono (layered.traced.request source.1).2

theorem Layered.visit (layered : walk.Layered program maxDepth) {user : User} {subst : Subst} {tree : Node}
    (source : ∀ use ∈ tree.uses (.ofProgram program) subst, Derived program walk.latest (use.core user))
    (needed : ∀ {kind name args}, tree.Uses (.ofProgram program) subst kind name args →
      (Index.ofProgram program).Fits kind name args → Needed program kind name args) :
    ((tree.uses (.ofProgram program) subst).foldl (Walk.request (.ofProgram program) maxDepth user) walk).Layered
      program maxDepth :=
  layered.requests (fun _ => by simp) (tree.uses_innerFirst subst) source fun use member =>
    needed (Node.uses_iff.mpr ⟨use, member, rfl, rfl, rfl⟩)

theorem Layered.collect (layered : walk.Layered program maxDepth) : (walk.collect program maxDepth).Layered program maxDepth := by
  refine collect_keeps (fun {walk decl} member notGeneric layered => ?_) layered
  refine layered.visit (fun use inside => ?_) fun uses fits => .written member notGeneric uses fits
  exact .written ⟨decl, member, notGeneric, Node.uses_iff.mpr ⟨use, inside, rfl, rfl, rfl⟩⟩ rfl rfl

theorem Layered.expandOne (layered : walk.Layered program maxDepth) (kind : InstKind) {inst : Instantiation}
    (member : inst ∈ (walk.insts.registry kind).entries) :
    (walk.expandOne (.ofProgram program) maxDepth inst).Layered program maxDepth := by
  unfold Walk.expandOne
  split
  · exact layered
  next node subst found =>
    refine layered.visit (fun use inside => ?_) fun uses fits => ?_
    · have known : inst.core ∈ walk.latest := layered.traced.mem_latest.mpr ⟨kind, List.mem_map_of_mem member⟩
      exact .opened known ⟨node, subst, found, Node.uses_iff.mpr ⟨use, inside, rfl, rfl, rfl⟩⟩ rfl rfl
    · obtain ⟨params, declared, -, rfl⟩ := specialized?_eq_some.mp found
      exact .opened (layered.sound.entry_needed member) declared uses fits

theorem prepare_layered (program : Program) (maxDepth : Nat) :
    ∃ walk : Walk, prepare program maxDepth = walk.result ∧ walk.Layered program maxDepth := by
  have start : Layered program maxDepth { insts := { collisions := .once [] } } :=
    ⟨sound_empty program, traced_empty program maxDepth, fun _ => trivial⟩
  exact ⟨_, rfl, expandFrom_keeps (fun kind _ member layered => layered.expandOne kind member) start.collect 0 0⟩

theorem Traced.structs_split (traced : walk.Traced program maxDepth) {later earlier : List Instantiation}
    {inner entry : Instantiation} (split : walk.latest = later ++ entry.core :: earlier) (early : inner.core ∈ earlier)
    (inside : inner ∈ walk.insts.structs.entries) (member : entry ∈ walk.insts.structs.entries) :
    ∃ before after, walk.insts.structs.entries = before ++ entry :: after ∧ inner ∈ before := by
  have valid : walk.insts.structs.Valid := traced.inStep.valid .struct
  have unique {first second : Instantiation} (left : first ∈ walk.insts.structs.entries)
      (right : second ∈ walk.insts.structs.entries) (same : first.core = second.core) : first = second := by
    have found := valid.findKey?_eq_some.mpr ⟨left, rfl⟩
    have again := valid.findKey?_eq_some.mpr ⟨right, (congrArg (·.key) same).symm⟩
    exact Option.some.inj (found.symm.trans again)
  have kind {inst : Instantiation} (member : inst ∈ walk.insts.structs.entries) : decide (inst.core.kind = .struct) = true :=
    decide_eq_true ((valid.kind inst member).trans (traced.inStep.kind .struct))
  have cores := traced.listed .struct
  rw [split, List.filter_append,
    List.filter_cons_of_pos (p := fun core : Instantiation => decide (core.kind = .struct)) (kind member),
    List.reverse_append, List.reverse_cons, List.append_assoc, List.singleton_append] at cores
  obtain ⟨before, rest, whole, front, back⟩ := List.map_eq_append_iff.mp cores.symm
  obtain ⟨found, after, rfl, here, -⟩ := List.map_eq_cons_iff.mp back
  have found_mem : found ∈ walk.insts.structs.entries := by
    have whole : walk.insts.structs.entries = before ++ found :: after := whole
    simp [whole]
  have placed : inner.core ∈ before.map (·.core) := by
    rw [front, List.mem_reverse]
    exact List.mem_filter.mpr ⟨early, kind inside⟩
  obtain ⟨same, front, equal⟩ := List.mem_map.mp placed
  have same_mem : same ∈ walk.insts.structs.entries := by
    have whole : walk.insts.structs.entries = before ++ found :: after := whole
    simp [whole, front]
  rw [← unique found_mem member here, ← unique same_mem inside equal]
  exact ⟨before, after, whole, front⟩

end Walk

/-- In a program that was read and for which the passes report no error, every generic struct in the type arguments of an
entry, at any depth and with the right number of arguments, is registered itself, and it was created before the entry. A
struct entry stands behind it in the registry. -/
theorem arguments_registered_first (settings : ParseSettings) (file : UInt32) (content : Text) (maxDepth : Nat)
    (clean : ∀ report ∈ (prepare (parseFile settings file content).program maxDepth).reports, report.severity ≠ .error) :
    let program := (parseFile settings file content).program
    let result := prepare program maxDepth
    ∀ entry, result.Has entry → ∀ type ∈ entry.typeArgs, ∀ name args loc, (TypeExpr.applied name args loc).Within type →
      ∀ decl, (Index.ofProgram program).struct? name = some decl → decl.typeParams.length = args.length →
        ∃ inner ∈ result.insts.structs.entries, inner.genericName = name ∧ TypeExpr.sameLists inner.typeArgs args = true ∧
          result.CreatedBefore inner entry ∧
          (entry.kind = .struct → ∃ before after, result.insts.structs.entries = before ++ entry :: after ∧ inner ∈ before) := by
  intro program result entry has type typed name args loc within decl declared count
  have written : program.Written := parseFile_written settings file content
  obtain ⟨walk, ended, layered⟩ := Walk.prepare_layered program maxDepth
  have same : result = walk.result := ended
  rw [same] at has ⊢
  have quiet : walk.Quiet := by
    intro report member
    have error := layered.sound.errors report member
    exact absurd error (clean report (ended ▸ List.mem_reverse.mpr member))
  obtain ⟨kind, member⟩ := has
  obtain ⟨later, earlier, split⟩ :=
    List.append_of_mem (layered.traced.mem_latest.mpr ⟨kind, List.mem_map_of_mem member⟩ : entry.core ∈ walk.latest)
  have carries : (Index.ofProgram program).Carries entry.core.typeArgs name args := by
    refine ⟨⟨type, typed, loc, within⟩, Option.isSome_of_eq_some declared, ?_⟩
    simpa [Index.Fits, Index.paramsOf, declared] using count
  have founded := layered.founded quiet
  rw [split] at founded
  obtain ⟨core, early, struct, named, key⟩ := founded.split carries
  have created : core ∈ walk.latest := by
    rw [split]
    exact List.mem_append_right _ (List.mem_cons_of_mem _ early)
  obtain ⟨inner, -, ⟨registry, inside⟩, rfl⟩ := layered.traced.findKey? created
  have kinds {inst : Instantiation} {registry : InstKind} (inside : inst ∈ (walk.insts.registry registry).entries) :
      registry = inst.kind :=
    ((layered.sound.kind registry).symm.trans ((layered.sound.valid registry).kind inst inside).symm)
  obtain rfl := (kinds inside).trans struct
  have keyed := (TypeExpr.allKeyed_iff _).mp ((layered.sound.entry_needed member).keyed written) type typed
  have types := (TypeExpr.listKey_eq_iff ((layered.sound.entry_needed inside).keyed written) (within.keyed keyed).2).mp key
  refine ⟨inner, inside, named, types, Walk.createdBefore_of_split split early, fun own => ?_⟩
  obtain rfl := (kinds member).trans own
  exact layered.traced.structs_split split early inside member

def boxedCall : Text :=
  "struct Box<T> \x7b T item; \x7d; void keep<T>(T item) \x7b Box<T> box; \x7d void run() \x7b keep<Box<int>>(0); \x7d"

/-- The inner box of a box of boxes is registered before it. -/
theorem boxedCall_inner_box_first :
    let program := (parseFile {} 0 boxedCall).program
    let result := prepare program 64
    (∀ report ∈ result.reports, report.severity ≠ .error) ∧
    ∃ entry inner : Instantiation, entry.genericName = "Box" ∧ inner.genericName = "Box" ∧
      TypeExpr.sameLists inner.typeArgs [.named "int" Span.nowhere] = true ∧
      ∃ before after, result.insts.structs.entries = before ++ entry :: after ∧ inner ∈ before := by
  intro program result
  let wanted (inst : Instantiation) : Bool := inst.kind = .struct && inst.genericName = "Box" &&
    TypeExpr.sameLists inst.typeArgs [.applied "Box" [.named "int" Span.nowhere] Span.nowhere]
  have run := prepare_within program 64 (fun result => decide (∀ report ∈ result.reports, report.severity ≠ .error) &&
    result.insts.structs.entries.any wanted) 4 (by decide +kernel)
  obtain ⟨clean, found⟩ := Bool.and_eq_true_iff.mp run
  have clean := of_decide_eq_true clean
  obtain ⟨entry, member, facts⟩ := List.any_eq_true.mp found
  obtain ⟨named, typed⟩ := Bool.and_eq_true_iff.mp facts
  obtain ⟨kind, named⟩ := Bool.and_eq_true_iff.mp named
  obtain ⟨decl, declared, count⟩ :
      ∃ decl, (Index.ofProgram program).struct? "Box" = some decl ∧ decl.typeParams.length = 1 := by
    have known : (((Index.ofProgram program).struct? "Box").any (·.typeParams.length = 1)) = true := by decide +kernel
    simpa using (Option.any_eq_true _ _).mp known
  obtain ⟨args, loc, written, same⟩ : ∃ args loc, TypeExpr.applied "Box" args loc ∈ entry.typeArgs ∧
      TypeExpr.bareAll args = TypeExpr.bareAll [.named "int" Span.nowhere] := by
    have bare := (TypeExpr.sameLists_iff_bare _ _).mp typed
    rw [TypeExpr.bareAll_eq_map] at bare
    obtain ⟨type, rest, given, shape, -⟩ := List.map_eq_cons_iff.mp bare
    cases type with
    | applied name args loc =>
      obtain ⟨rfl, same, -⟩ := TypeExpr.applied.inj shape
      exact ⟨args, loc, given ▸ List.mem_cons_self, same⟩
    | absent => cases shape
    | named => cases shape
    | pointer => cases shape
  have one : args.length = 1 := by
    rw [TypeExpr.bareAll_eq_map, TypeExpr.bareAll_eq_map] at same
    simpa using congrArg List.length same
  obtain ⟨inner, inside, called, types, -, order⟩ := arguments_registered_first {} 0 boxedCall 64 clean entry
    ⟨.struct, member⟩ _ written "Box" args loc .here decl declared (count.trans one.symm)
  have int := (TypeExpr.sameLists_iff_bare _ _).mpr (((TypeExpr.sameLists_iff_bare _ _).mp types).trans same)
  exact ⟨clean, entry, inner, of_decide_eq_true named, called, int, order (of_decide_eq_true kind)⟩

end GenericC
