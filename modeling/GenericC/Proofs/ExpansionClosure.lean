import GenericC.Proofs.ExpansionSteps
import GenericC.Proofs.ParsedProgram
import GenericC.Proofs.SubstitutedTypes

/-! Which instantiations a program needs, said without a worklist: those used in its declarations that are not generic,
and whatever is used in the declaration of an instantiation that is needed. Unless the nesting of
instantiations or their C names stand in the way, exactly these are registered. -/

namespace GenericC

variable {index : Index} {kind : InstKind} {name : Text} {args : List TypeExpr} {program : Program} {walk : Walk}
variable {tree : Node} {params : List TypeParam} {after : Walk}

/-- A declared generic is used in a tree, with the type parameters in scope replaced. -/
inductive Node.Uses (index : Index) (subst : Subst) (tree : Node) : InstKind → Text → List TypeExpr → Prop where
  /-- A struct stands in a written type, or in a type argument, at any depth. -/
  | struct {label : NodeLabel} {type : TypeExpr} {name : Text} {args : List TypeExpr} {loc : Span}
      (label_mem : label ∈ tree.labels) (type_mem : type ∈ label.types)
      (within : (TypeExpr.applied name args loc).Within (subst.type type)) (declared : (index.struct? name).isSome) :
      Uses index subst tree .struct name args
  /-- A function is called with type arguments. -/
  | func {label : NodeLabel} (label_mem : label ∈ tree.labels) (call : label.kind = .call) (typed : label.types ≠ [])
      (declared : (index.func? label.callee).isSome) :
      Uses index subst tree .func label.callee (subst.types label.types)

/-- The instantiations that a program needs. -/
inductive Needed (program : Program) : InstKind → Text → List TypeExpr → Prop where
  /-- One that is used in a declaration that is not generic. -/
  | written {decl : Decl} {kind : InstKind} {name : Text} {args : List TypeExpr} (member : decl ∈ program.decls)
      (plain : decl.isGeneric = false) (uses : decl.toNode.Uses (.ofProgram program) {} kind name args)
      (fits : (Index.ofProgram program).Fits kind name args) : Needed program kind name args
  /-- One that is used in the declaration of an instantiation that is needed. -/
  | opened {owner : Text} {types : List TypeExpr} {ownerKind : InstKind} {node : Node} {params : List TypeParam}
      {kind : InstKind} {name : Text} {args : List TypeExpr} (needed : Needed program ownerKind owner types)
      (declared : (Index.ofProgram program).declaration? ownerKind owner = some (node, params))
      (uses : node.Uses (.ofProgram program) (.ofParams params types) kind name args)
      (fits : (Index.ofProgram program).Fits kind name args) : Needed program kind name args

theorem Needed.fits {program : Program} {kind : InstKind} {name : Text} {args : List TypeExpr}
    (needed : Needed program kind name args) : (Index.ofProgram program).Fits kind name args := by
  cases needed with
  | written _ _ _ fits | opened _ _ _ fits => exact fits

theorem NodeLabel.mem_uses {subst : Subst} {label : NodeLabel} {use : Use} :
    use ∈ label.uses index subst ↔
      (∃ type ∈ label.types, use ∈ (subst.type type).uses index (label.siteOf type)) ∨
      (label.kind = .call ∧ label.types ≠ [] ∧ (index.func? label.callee).isSome ∧
        use = ⟨.func, label.callee, subst.types label.types, label.span⟩) := by
  have generic : (label.isGenericCall && (index.func? label.callee).isSome) = true ↔
      label.kind = .call ∧ label.types ≠ [] ∧ (index.func? label.callee).isSome := by
    simp [isGenericCall, and_assoc]
  unfold uses
  dsimp only
  split
  next holds =>
    have := generic.mp holds
    rw [List.mem_append, List.mem_flatMap, List.mem_singleton]
    exact or_congr_right ⟨fun same => ⟨this.1, this.2.1, this.2.2, same⟩, fun own => own.2.2.2⟩
  next fails =>
    have := mt generic.mpr fails
    rw [List.mem_flatMap]
    exact ⟨.inl, fun found => found.resolve_right fun own => this ⟨own.1, own.2.1, own.2.2.1⟩⟩

theorem Node.uses_iff {subst : Subst} :
    tree.Uses index subst kind name args ↔
      ∃ use ∈ tree.uses index subst, use.kind = kind ∧ use.name = name ∧ use.args = args := by
  unfold Node.uses
  simp only [List.mem_flatMap]
  constructor
  · intro uses
    cases uses with
    | @struct label type name args loc label_mem type_mem within declared =>
      refine ⟨⟨.struct, name, args, label.siteOf type⟩, ⟨label, label_mem, ?_⟩, rfl, rfl, rfl⟩
      exact NodeLabel.mem_uses.mpr (.inl ⟨type, type_mem, TypeExpr.mem_uses.mpr ⟨rfl, rfl, declared, loc, within⟩⟩)
    | @func label label_mem call typed declared =>
      refine ⟨⟨.func, label.callee, subst.types label.types, label.span⟩, ⟨label, label_mem, ?_⟩, rfl, rfl, rfl⟩
      exact NodeLabel.mem_uses.mpr (.inr ⟨call, typed, declared, rfl⟩)
  · rintro ⟨use, ⟨label, label_mem, member⟩, rfl, rfl, rfl⟩
    rcases NodeLabel.mem_uses.mp member with ⟨type, type_mem, inside⟩ | ⟨call, typed, declared, rfl⟩
    · obtain ⟨kind, -, declared, loc, within⟩ := TypeExpr.mem_uses.mp inside
      rw [kind]
      exact .struct label_mem type_mem within declared
    · exact .func label_mem call typed declared

def Node.Keyed (tree : Node) : Prop := ∀ label ∈ tree.labels, TypeExpr.AllKeyed label.types

theorem Node.TypesWritten.keyed (written : tree.TypesWritten) : tree.Keyed := by
  intro label member
  rw [TypeExpr.allKeyed_iff]
  exact fun type inside => (written type (List.mem_flatMap.mpr ⟨label, member, inside⟩)).keyed

theorem Node.Uses.keyed {index : Index} {subst : Subst} {kind : InstKind} {name : Text} {args : List TypeExpr}
    (uses : tree.Uses index subst kind name args) (keyed : tree.Keyed) (bound : subst.Keyed) :
    TypeExpr.AllKeyed args := by
  cases uses with
  | struct label_mem type_mem within declared =>
    have type := (TypeExpr.allKeyed_iff _).mp (keyed _ label_mem) _ type_mem
    exact (within.keyed (bound.type type)).2
  | func label_mem call typed declared => exact bound.types (keyed _ label_mem)

theorem Index.mem_structs {decl : StructDecl} (member : decl ∈ (Index.ofProgram program).structs) :
    .struct decl ∈ program.decls ∧ decl.isGeneric = true := by
  obtain ⟨other, inside, found⟩ := List.mem_filterMap.mp member
  cases other with
  | struct other =>
    obtain ⟨generic, ⟨⟩⟩ := Option.ite_none_right_eq_some.mp found
    exact ⟨inside, generic⟩
  | _ => cases found

theorem Index.mem_funcs {decl : FuncDecl} (member : decl ∈ (Index.ofProgram program).funcs) :
    .function decl ∈ program.decls ∧ decl.isGeneric = true := by
  obtain ⟨other, inside, found⟩ := List.mem_filterMap.mp member
  cases other with
  | function other =>
    obtain ⟨generic, ⟨⟩⟩ := Option.ite_none_right_eq_some.mp found
    exact ⟨inside, generic⟩
  | _ => cases found

private theorem mem_of_find?_or_getLast? {α : Type} {items : List α} {defined : α → Bool} {item : α}
    (found : (items.find? defined).or items.getLast? = some item) : item ∈ items := by
  rcases Option.or_eq_some_iff.mp found with first | ⟨-, last⟩
  · exact List.mem_of_find?_eq_some first
  · exact List.mem_of_getLast? last

theorem Index.struct?_mem {decl : StructDecl} (found : index.struct? name = some decl) :
    decl ∈ index.structs ∧ decl.name = name := by
  simpa using mem_of_find?_or_getLast? found

theorem Index.func?_mem {decl : FuncDecl} (found : index.func? name = some decl) :
    decl ∈ index.funcs ∧ decl.name = name := by
  simpa using mem_of_find?_or_getLast? found

theorem Program.Written.declaration (written : program.Written) {node : Node}
    (declared : (Index.ofProgram program).declaration? kind name = some (node, params)) : node.Keyed := by
  cases kind with
  | struct =>
    obtain ⟨decl, found, same⟩ := Option.map_eq_some_iff.mp declared
    cases same
    exact (written _ (Index.mem_structs (Index.struct?_mem found).1).1).types.keyed
  | func =>
    obtain ⟨decl, found, same⟩ := Option.map_eq_some_iff.mp declared
    cases same
    exact (written _ (Index.mem_funcs (Index.func?_mem found).1).1).types.keyed

theorem Needed.keyed {program : Program} (written : program.Written) {kind : InstKind} {name : Text}
    {args : List TypeExpr} (needed : Needed program kind name args) : TypeExpr.AllKeyed args := by
  induction needed with
  | written member plain uses fits => exact uses.keyed (written _ member).types.keyed Subst.keyed_empty
  | opened needed declared uses fits ih => exact uses.keyed (written.declaration declared) (Subst.keyed_ofParams _ ih)

theorem Node.Uses.same {index : Index} {first second : Subst} {kind : InstKind} {name : Text} {args : List TypeExpr}
    (uses : tree.Uses index first kind name args) (same : first.Same second) :
    ∃ other, tree.Uses index second kind name other ∧ TypeExpr.bareAll args = TypeExpr.bareAll other := by
  cases uses with
  | @struct label type name args loc label_mem type_mem within declared =>
    obtain ⟨other, place, below, equal⟩ := within.bare (same.type type)
    exact ⟨other, .struct label_mem type_mem below declared, equal⟩
  | @func label label_mem call typed declared =>
    exact ⟨_, .func label_mem call typed declared, same.types label.types⟩

namespace Registry

def heads (registry : Registry) : List (Text × List TypeExpr) :=
  registry.entries.map fun inst => (inst.genericName, inst.typeArgs)

def Has (registry : Registry) (name : Text) (args : List TypeExpr) : Prop :=
  ∃ head ∈ registry.heads, head.1 = name ∧ TypeExpr.listKey head.2 = TypeExpr.listKey args

theorem Has.mono {before after : Registry} (has : before.Has name args)
    (grown : before.heads <+: after.heads) : after.Has name args := by
  obtain ⟨head, member, same⟩ := has
  exact ⟨head, grown.subset member, same⟩

theorem heads_existing {registry : Registry} {inst : Instantiation} {place : Nat}
    (entry : registry.entries[place]? = some inst) (site : UseSite) :
    heads { registry with entries := registry.entries.set place (inst.addSite site) } = registry.heads :=
  map_set _ entry (by simp)

theorem heads_created (registry : Registry) (name : Text) (args : List TypeExpr) (site : UseSite) (origin : Origin)
    (byKey : List (InstKey × Nat)) (byMangled : List (Text × Nat)) :
    heads { registry with entries := registry.entries ++ [registry.created name args site origin], byKey, byMangled } =
      registry.heads ++ [(name, args)] := by
  simp [heads, created]

end Registry

theorem Needed.specialized {inst : Instantiation} (needed : Needed program inst.kind inst.genericName inst.typeArgs) {node : Node}
    {subst : Subst} (found : (Index.ofProgram program).specialized? inst = some (node, subst)) {use : Use}
    (member : use ∈ node.uses (.ofProgram program) subst)
    (fits : (Index.ofProgram program).Fits use.kind use.name use.args) : Needed program use.kind use.name use.args := by
  obtain ⟨params, declared, -, rfl⟩ := specialized?_eq_some.mp found
  exact .opened needed declared (Node.uses_iff.mpr ⟨use, member, rfl, rfl, rfl⟩) fits

theorem declaration?_params {node : Node} (declared : index.declaration? kind name = some (node, params)) :
    index.paramsOf kind name = params := by
  cases kind with
  | struct | func =>
    obtain ⟨decl, found, same⟩ := Option.map_eq_some_iff.mp declared
    cases same
    simp [Index.paramsOf, found]

namespace Walk

variable {before : Walk} {problem : Diagnostic}

def Has (walk : Walk) (kind : InstKind) (name : Text) (args : List TypeExpr) : Prop :=
  (walk.insts.registry kind).Has name args

def Quiet (walk : Walk) : Prop :=
  ∀ report ∈ walk.reports, report.code ≠ .depthExceeded ∧ report.code ≠ .mangleCollision

def Reported (walk : Walk) (identity : Diagnostic.Identity) : Prop :=
  ∃ report ∈ walk.reports, report.identity = identity

/-- Only what is needed is registered, what counts as reported was reported, and every report is an error. -/
structure Sound (program : Program) (walk : Walk) : Prop extends inStep : InStep walk where
  needed : ∀ kind, ∀ head ∈ (walk.insts.registry kind).heads, Needed program kind head.1 head.2
  seen : ∀ identity ∈ walk.seen, walk.Reported identity
  collisions : ∃ seen, walk.insts.collisions = .once seen ∧ ∀ identity ∈ seen, walk.Reported identity
  errors : ∀ report ∈ walk.reports, report.severity = .error

/-- Nothing is taken back. -/
structure Grows (before after : Walk) : Prop where
  reports : before.reports ⊆ after.reports
  heads : ∀ kind, (before.insts.registry kind).heads <+: (after.insts.registry kind).heads

theorem Grows.refl (walk : Walk) : walk.Grows walk := ⟨List.Subset.refl _, fun _ => List.prefix_refl _⟩

theorem Grows.quiet (grows : before.Grows after) (quiet : after.Quiet) : before.Quiet :=
  fun report member => quiet report (grows.reports member)

theorem Has.mono {kind : InstKind} {name : Text} {args : List TypeExpr} (has : before.Has kind name args)
    (grows : before.Grows after) : after.Has kind name args :=
  Registry.Has.mono has (grows.heads kind)

theorem Reported.mono {identity : Diagnostic.Identity} (reported : before.Reported identity)
    (kept : before.reports ⊆ after.reports) : after.Reported identity := by
  obtain ⟨report, member, same⟩ := reported
  exact ⟨report, kept member, same⟩

theorem Reported.not_quiet (reported : walk.Reported problem.identity)
    (code : problem.code = .depthExceeded ∨ problem.code = .mangleCollision) : ¬ walk.Quiet := by
  obtain ⟨report, member, same⟩ := reported
  intro quiet
  have equal : report.code = problem.code := congrArg Diagnostic.Identity.code same
  have := quiet report member
  rw [equal] at this
  exact code.elim this.1 this.2

theorem report_reported (walk : Walk) (problem : Diagnostic) (seen : ∀ identity ∈ walk.seen, walk.Reported identity) :
    (walk.report problem).Reported problem.identity := by
  unfold report
  split
  next known => exact seen _ (List.contains_iff_mem.mp known)
  next => exact ⟨problem, List.mem_cons_self, rfl⟩

theorem report_grows (walk : Walk) (problem : Diagnostic) : walk.Grows (walk.report problem) := by
  unfold report
  split
  · exact .refl _
  · exact ⟨List.subset_cons_self _ _, fun _ => List.prefix_refl _⟩

theorem Sound.report {program : Program} {walk : Walk} (sound : walk.Sound program) (error : problem.severity = .error) :
    (walk.report problem).Sound program := by
  unfold Walk.report
  split
  · exact sound
  · have kept : walk.reports ⊆ problem :: walk.reports := List.subset_cons_self _ _
    refine ⟨sound.congr fun _ => rfl, sound.needed, ?_, ?_, List.forall_mem_cons.mpr ⟨error, sound.errors⟩⟩
    · intro identity member
      rcases List.mem_cons.mp member with rfl | member
      · exact ⟨problem, List.mem_cons_self, rfl⟩
      · exact (sound.seen identity member).mono kept
    · obtain ⟨seen, policy, all⟩ := sound.collisions
      exact ⟨seen, policy, fun identity member => (all identity member).mono kept⟩

/-- What a part of a pass leaves: nothing but what is needed, all that was there, and unless a use was turned away, the
answers that the part is run for. -/
structure Passed (program : Program) (walk after : Walk) (answered : Walk → Prop) : Prop where
  sound : after.Sound program
  grows : walk.Grows after
  answered : after.Quiet → answered after

theorem Sound.put {registry : Registry} {added : List (Text × List TypeExpr)} (sound : walk.Sound program)
    (valid : registry.Valid) (same : registry.kind = kind)
    (heads : registry.heads = (walk.insts.registry kind).heads ++ added)
    (needed : ∀ head ∈ added, Needed program kind head.1 head.2) (has : registry.Has name args)
    (created : List Instantiation) :
    Passed program walk { walk with insts := walk.insts.setRegistry kind registry, created } (·.Has kind name args) := by
  refine ⟨⟨sound.inStep.put valid same, ?_, sound.seen, ?_, sound.errors⟩, ⟨List.Subset.refl _, ?_⟩, fun _ => ?_⟩
  · intro other
    rw [Instantiations.registry_setRegistry]
    split
    next equal =>
      rw [equal, heads]
      exact List.forall_mem_append.mpr ⟨sound.needed kind, needed⟩
    · exact sound.needed other
  · obtain ⟨seen, policy, all⟩ := sound.collisions
    exact ⟨seen, by cases kind <;> exact policy, all⟩
  · intro other
    rw [Instantiations.registry_setRegistry]
    split
    next equal =>
      rw [equal]
      exact ⟨added, heads.symm⟩
    · exact List.prefix_rfl
  · unfold Has
    rw [Instantiations.registry_setRegistry, if_pos rfl]
    exact has

theorem accept_once (seen : List Diagnostic.Identity) (problem : Diagnostic) :
    ∃ next, ((CollisionReports.once seen).accept problem).1 = .once next ∧ problem.identity ∈ next ∧
      (∀ identity ∈ next, identity ∈ seen ∨
        ∃ report ∈ ((CollisionReports.once seen).accept problem).2, report.identity = identity) ∧
      ∀ report ∈ ((CollisionReports.once seen).accept problem).2, report = problem := by
  unfold CollisionReports.accept
  dsimp only
  split
  next known => exact ⟨seen, rfl, List.contains_iff_mem.mp known, fun identity member => .inl member, by simp⟩
  next fresh =>
    refine ⟨problem.identity :: seen, rfl, List.mem_cons_self, ?_, by simp⟩
    intro identity member
    rcases List.mem_cons.mp member with rfl | member
    · exact .inr ⟨problem, List.mem_singleton_self _, rfl⟩
    · exact .inl member

/-- What becomes of a use: with the right number of arguments it is registered, and a wrong number is reported. -/
structure Answers (program : Program) (walk : Walk) (kind : InstKind) (name : Text) (args : List TypeExpr) : Prop where
  has : (Index.ofProgram program).Fits kind name args → walk.Has kind name args
  fits : walk.reports = [] → (Index.ofProgram program).Fits kind name args

theorem Answers.mono {program : Program} {kind : InstKind} {name : Text} {args : List TypeExpr}
    (answers : before.Answers program kind name args) (grows : before.Grows after) :
    after.Answers program kind name args :=
  ⟨fun fits => (answers.has fits).mono grows, fun none => answers.fits (List.subset_nil.mp (none ▸ grows.reports))⟩

theorem depthReport_shape (insts : Instantiations) (maxDepth : Nat) (user : User) (use : Use) :
    (depthReport insts maxDepth user use).code = .depthExceeded ∧
      (depthReport insts maxDepth user use).severity = .error := by
  unfold depthReport
  dsimp only
  split
  · exact ⟨rfl, rfl⟩
  · split <;> exact ⟨rfl, rfl⟩

theorem Sound.refused (sound : walk.Sound program) (code : problem.code = .mangleCollision)
    (error : problem.severity = .error) (answered : Walk → Prop) :
    Passed program walk
      { walk with
        insts := { walk.insts with collisions := (walk.insts.collisions.accept problem).1 }
        reports := (walk.insts.collisions.accept problem).2 ++ walk.reports } answered := by
  obtain ⟨seen, policy, all⟩ := sound.collisions
  obtain ⟨next, accepted, counted, only, new⟩ := accept_once seen problem
  rw [policy]
  generalize after_eq : ({ walk with
    insts := { walk.insts with collisions := ((CollisionReports.once seen).accept problem).1 }
    reports := ((CollisionReports.once seen).accept problem).2 ++ walk.reports } : Walk) = after
  have registry (kind : InstKind) : after.insts.registry kind = walk.insts.registry kind := by
    rw [← after_eq]
    cases kind <;> rfl
  have kept : walk.reports ⊆ after.reports := by
    rw [← after_eq]
    exact List.subset_append_right _ _
  have reported : ∀ identity ∈ next, after.Reported identity := by
    intro identity member
    rcases only identity member with old | ⟨report, fresh, same⟩
    · exact (all identity old).mono kept
    · refine ⟨report, ?_, same⟩
      rw [← after_eq]
      exact List.mem_append_left _ fresh
  refine ⟨⟨sound.congr registry, fun kind => registry kind ▸ sound.needed kind, ?_, ?_, ?_⟩,
    ⟨kept, fun kind => registry kind ▸ List.prefix_rfl⟩, fun quiet => ?_⟩
  · intro identity member
    rw [← after_eq] at member
    exact (sound.seen identity member).mono kept
  · exact ⟨next, by rw [← after_eq]; exact accepted, reported⟩
  · rw [← after_eq]
    exact List.forall_mem_append.mpr ⟨fun report fresh => new report fresh ▸ error, sound.errors⟩
  · exact absurd quiet ((reported _ counted).not_quiet (.inr code))

theorem request_passed {use : Use} (sound : walk.Sound program)
    (needed : (Index.ofProgram program).Fits use.kind use.name use.args → Needed program use.kind use.name use.args)
    (maxDepth : Nat) (user : User) :
    Passed program walk (walk.request (.ofProgram program) maxDepth user use)
      (·.Answers program use.kind use.name use.args) := by
  have valid := sound.valid use.kind
  have registered {after : Walk} (fits : (Index.ofProgram program).Fits use.kind use.name use.args)
      (passed : Passed program walk after (·.Has use.kind use.name use.args)) :
      Passed program walk after (·.Answers program use.kind use.name use.args) :=
    ⟨passed.sound, passed.grows, fun quiet => ⟨fun _ => passed.answered quiet, fun _ => fits⟩⟩
  have step := request_cases (.ofProgram program) maxDepth user walk use
  generalize walk.request (.ofProgram program) maxDepth user use = after at step ⊢
  cases step with
  | @misfit problem wrong code error =>
    refine ⟨sound.report error, report_grows _ _, fun _ => ⟨fun fits => absurd fits wrong, fun none => ?_⟩⟩
    obtain ⟨report, member, -⟩ := report_reported walk problem sound.seen
    exact absurd (none ▸ member) List.not_mem_nil
  | tooDeep fits deep missing =>
    have reported := report_reported walk (depthReport walk.insts maxDepth user use) sound.seen
    obtain ⟨code, error⟩ := depthReport_shape walk.insts maxDepth user use
    exact ⟨sound.report error, report_grows _ _, fun quiet => absurd quiet (reported.not_quiet (.inl code))⟩
  | @existing place inst fits known entry =>
    have heads := Registry.heads_existing entry ⟨use.site, user.caller⟩
    refine registered fits (sound.put (valid.existing entry _) (sound.kind _) (heads.trans (List.append_nil _).symm)
      (List.forall_mem_nil _) ⟨(inst.genericName, inst.typeArgs), ?_, ?_⟩ walk.created)
    · rw [heads]
      exact List.mem_map_of_mem (f := fun inst : Instantiation => (inst.genericName, inst.typeArgs))
        (List.mem_of_getElem? entry)
    · obtain ⟨member, key⟩ := valid.findKey?_eq_some.mp known
      rw [valid.key inst member] at key
      simpa only [Registry.keyOf, InstKey.mk.injEq, true_and] using key
  | collision fits missing owned code error => exact sound.refused code error _
  | created fits within missing unowned =>
    have heads := Registry.heads_created (walk.insts.registry use.kind) use.name use.args ⟨use.site, user.caller⟩ user.origin
    refine registered fits (sound.put
      (valid.created (valid.findKey?_eq_none.mp missing) (valid.findMangled?_eq_none.mp unowned)) (sound.kind _)
      (heads _ _) (List.forall_mem_singleton.mpr (needed fits)) ⟨(use.name, use.args), ?_, rfl, rfl⟩ _)
    rw [heads]
    exact List.mem_append_right _ List.mem_cons_self

def Visited (program : Program) (subst : Subst) (tree : Node) (walk : Walk) : Prop :=
  ∀ ⦃kind name args⦄, tree.Uses (.ofProgram program) subst kind name args → walk.Answers program kind name args

def Collected (program : Program) (decls : List Decl) (walk : Walk) : Prop :=
  ∀ decl ∈ decls, walk.Visited program {} decl.toNode

def Expanded (program : Program) (walk : Walk) (kind : InstKind) (head : Text × List TypeExpr) : Prop :=
  ∀ ⦃node params⦄, (Index.ofProgram program).declaration? kind head.1 = some (node, params) →
    walk.Visited program (.ofParams params head.2) node

theorem Sound.entry_needed {inst : Instantiation} (sound : walk.Sound program)
    (member : inst ∈ (walk.insts.registry kind).entries) : Needed program inst.kind inst.genericName inst.typeArgs := by
  rw [(sound.valid kind).kind inst member, sound.kind]
  exact sound.needed kind (inst.genericName, inst.typeArgs) (List.mem_map.mpr ⟨inst, member, rfl⟩)

/-- Unless some use is turned away, every use gets its answer when it is met. -/
def answers (program : Program) (maxDepth : Nat) : Lasting program maxDepth where
  inv := Sound program
  fine use := (Index.ofProgram program).Fits use.kind use.name use.args → Needed program use.kind use.name use.args
  holds walk _ _ use := walk.Quiet → walk.Answers program use.kind use.name use.args
  inStep sound := sound.inStep
  step user _ sound fine := (request_passed sound fine maxDepth user).sound
  answer user _ sound fine := (request_passed sound fine maxDepth user).answered
  keep user _ _ _ _ sound fine _ answered quiet :=
    have grows := (request_passed sound fine maxDepth user).grows
    (answered (grows.quiet quiet)).mono grows
  plain _ member plain use inside fits :=
    .written member plain (Node.uses_iff.mpr ⟨use, inside, rfl, rfl, rfl⟩) fits
  opened sound member found _ inside fits := (sound.entry_needed member).specialized found inside fits

end Walk

theorem Walk.sound_empty (program : Program) : Walk.Sound program { insts := { collisions := .once [] } } where
  valid kind := by cases kind <;> exact Registry.valid_fresh _
  kind kind := by cases kind <;> rfl
  needed kind := by cases kind <;> simp [Instantiations.registry, Registry.heads]
  seen := by simp
  collisions := ⟨[], rfl, by simp⟩
  errors := by simp

/-- No use in a program was turned away: no chain of instantiations is too long, and no C name is taken. -/
def PassResult.NoneTurnedAway (result : PassResult) : Prop :=
  ∀ report ∈ result.reports, report.code ≠ .depthExceeded ∧ report.code ≠ .mangleCollision

/-- What both passes leave: only what is needed is registered, and unless a use was turned away, every use in a
plain declaration and in the declaration of whatever is registered has its answer. -/
theorem prepare_walk (program : Program) (maxDepth : Nat) :
    ∃ walk : Walk, prepare program maxDepth = walk.result ∧ walk.Sound program ∧
      (walk.Quiet → walk.Collected program (program.decls.filter (!·.isGeneric)) ∧
        ∀ kind, ∀ head ∈ (walk.insts.registry kind).heads, walk.Expanded program kind head) := by
  obtain ⟨walk, result, sound, plain, opened⟩ := (Walk.answers program maxDepth).prepare (Walk.sound_empty program)
  refine ⟨walk, result, sound, fun quiet => ⟨?_, ?_⟩⟩
  · intro decl member kind name args uses
    obtain ⟨use, inside, rfl, rfl, rfl⟩ := Node.uses_iff.mp uses
    exact plain decl member use inside quiet
  · intro kind head member node params declared _ _ _ uses
    have fits : params.length = head.2.length := declaration?_params declared ▸ (sound.needed kind head member).fits
    obtain ⟨inst, inside, rfl⟩ := List.mem_map.mp member
    obtain ⟨use, used, rfl, rfl, rfl⟩ := Node.uses_iff.mp uses
    obtain rfl : inst.kind = kind := ((sound.valid kind).kind inst inside).trans (sound.kind kind)
    have found := specialized?_eq_some.mpr ⟨params, declared, fits, rfl⟩
    exact (opened _ inst.core (List.mem_map_of_mem inside) found use used).2 quiet

theorem Walk.Sound.complete (sound : walk.Sound program) (written : program.Written)
    (collected : walk.Collected program (program.decls.filter (!·.isGeneric)))
    (expanded : ∀ kind, ∀ head ∈ (walk.insts.registry kind).heads, walk.Expanded program kind head)
    (needed : Needed program kind name args) : walk.Has kind name args := by
  induction needed with
  | written member plain uses fits =>
    exact (collected _ (List.mem_filter.mpr ⟨member, by simp [plain]⟩) uses).has fits
  | @opened owner types ownerKind node params kind name args below declared uses fits ih =>
    obtain ⟨head, member, rfl, key⟩ := ih
    have same : TypeExpr.bareAll types = TypeExpr.bareAll head.2 := by
      rw [← TypeExpr.sameLists_iff_bare, ← TypeExpr.listKey_eq_iff (below.keyed written)
        ((sound.needed ownerKind head member).keyed written)]
      exact key.symm
    obtain ⟨other, used, equal⟩ := uses.same (Subst.same_ofParams params same)
    have length : other.length = args.length := by
      have := congrArg List.length equal
      simpa [TypeExpr.bareAll_eq_map] using this.symm
    obtain ⟨found, inside, named, keyed⟩ :=
      (expanded ownerKind head member declared used).has (Eq.trans fits length.symm)
    refine ⟨found, inside, named, keyed.trans ?_⟩
    rw [← TypeExpr.listKey_bareAll, ← equal, TypeExpr.listKey_bareAll]

theorem Walk.Sound.entry {program : Program} {walk : Walk} (sound : walk.Sound program) (written : program.Written)
    {kind : InstKind} {name : Text} {args : List TypeExpr} (keyed : TypeExpr.AllKeyed args)
    (has : walk.Has kind name args) :
    ∃ entry ∈ (walk.insts.registry kind).entries, entry.genericName = name ∧ TypeExpr.sameLists entry.typeArgs args := by
  obtain ⟨head, member, named, key⟩ := has
  have equal := (TypeExpr.listKey_eq_iff ((sound.needed kind head member).keyed written) keyed).mp key
  obtain ⟨entry, inside, rfl⟩ := List.mem_map.mp member
  exact ⟨entry, inside, named, equal⟩

def Walk.expandWithin (index : Index) (maxDepth : Nat) : (steps : Nat) → Walk → (structs funcs : Nat) → Option Walk
  | 0, _, _, _ => none
  | steps + 1, walk, structs, funcs =>
    match walk.insts.structs.entries[structs]? with
    | some inst => expandWithin index maxDepth steps (walk.expandOne index maxDepth inst) (structs + 1) funcs
    | none =>
      match walk.insts.funcs.entries[funcs]? with
      | some inst => expandWithin index maxDepth steps (walk.expandOne index maxDepth inst) structs (funcs + 1)
      | none => some walk

theorem Walk.expandFrom_of_within {maxDepth steps : Nat} {structs funcs : Nat}
    (ended : expandWithin index maxDepth steps walk structs funcs = some after) :
    walk.expandFrom index maxDepth structs funcs = after := by
  induction steps generalizing walk structs funcs with
  | zero => cases ended
  | succ steps ih =>
    unfold expandWithin at ended
    unfold expandFrom
    split
    next inst found =>
      rw [found] at ended
      exact ih ended
    next missing =>
      rw [missing] at ended
      split
      next inst found =>
        rw [found] at ended
        exact ih ended
      next none =>
        rw [none] at ended
        exact Option.some.inj ended

/-- What holds of both passes when they end within so many steps. -/
theorem prepare_within (program : Program) (maxDepth : Nat) (holds : PassResult → Bool) (steps : Nat)
    (ended : ((Walk.collect program maxDepth { insts := { collisions := .once [] } }).expandWithin
      (.ofProgram program) maxDepth steps 0 0).any (fun walk => holds walk.result) = true) :
    holds (prepare program maxDepth) = true := by
  obtain ⟨after, found, held⟩ := (Option.any_eq_true _ _).mp ended
  unfold prepare Walk.expand
  rw [Walk.expandFrom_of_within found]
  exact held

instance (result : PassResult) : Decidable result.NoneTurnedAway := by
  unfold PassResult.NoneTurnedAway
  infer_instance

/-- In every program that was read, exactly what is needed is registered, unless a use is turned away. Two lists of
types count as one if they differ in places of the source only. -/
theorem registered_iff_needed (settings : ParseSettings) (file : UInt32) (content : Text) (maxDepth : Nat)
    (admitted : (prepare (parseFile settings file content).program maxDepth).NoneTurnedAway) (kind : InstKind)
    (name : Text) (args : List TypeExpr) :
    let program := (parseFile settings file content).program
    (∃ entry ∈ ((prepare program maxDepth).insts.registry kind).entries,
      entry.genericName = name ∧ TypeExpr.sameLists entry.typeArgs args) ↔
    ∃ found, Needed program kind name found ∧ TypeExpr.sameLists found args := by
  intro program
  have written : program.Written := parseFile_written settings file content
  obtain ⟨walk, result, sound, answered⟩ := prepare_walk program maxDepth
  rw [result] at admitted ⊢
  constructor
  · rintro ⟨entry, member, rfl, same⟩
    exact ⟨entry.typeArgs, sound.needed kind _ (List.mem_map.mpr ⟨entry, member, rfl⟩), same⟩
  · rintro ⟨found, wanted, same⟩
    obtain ⟨collected, expanded⟩ := answered fun report member => admitted report (List.mem_reverse.mpr member)
    have has := sound.complete written collected expanded wanted
    obtain ⟨entry, member, named, equal⟩ := sound.entry written (wanted.keyed written) has
    refine ⟨entry, member, named, ?_⟩
    rw [TypeExpr.sameLists_iff_bare] at equal same ⊢
    exact equal.trans same

def nestedBoxes : Text := "struct Box<T> \x7b T item; \x7d; struct Crate<T> \x7b Box<T> box; \x7d; Crate<int> crate;"

theorem nestedBoxes_needs_box :
    let program := (parseFile {} 0 nestedBoxes).program
    (prepare program 64).NoneTurnedAway ∧
      ∃ found, Needed program .struct "Box" found ∧ TypeExpr.sameLists found [.named "int" Span.nowhere] := by
  intro program
  have run := prepare_within program 64 (fun result => decide result.NoneTurnedAway &&
    (result.insts.registry .struct).entries.any fun entry => entry.genericName = "Box" &&
      TypeExpr.sameLists entry.typeArgs [.named "int" Span.nowhere]) 3 (by decide +kernel)
  obtain ⟨admitted, found⟩ := Bool.and_eq_true_iff.mp run
  refine ⟨of_decide_eq_true admitted, ?_⟩
  refine (registered_iff_needed {} 0 nestedBoxes 64 (of_decide_eq_true admitted) .struct "Box" _).mp ?_
  simpa using found

end GenericC
