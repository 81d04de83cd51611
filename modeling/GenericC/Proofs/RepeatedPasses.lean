import GenericC.Proofs.ExpansionClosure

/-! A pass that is made once more finds nothing new. Every use of the first run got an answer: it is registered, its C name
is taken, it is too deep, or it has the wrong number of arguments. Answers last while the registries grow, so the same use
in a later run is answered by what is there. -/

namespace GenericC

variable {walk first after : Walk} {inst : Instantiation} {use : Use} {index : Index} {maxDepth : Nat}

namespace Walk

theorem Settled.mono {depth : Nat} (settled : walk.Settled index maxDepth depth use)
    (grown : walk.cores use.kind <+: after.cores use.kind) : after.Settled index maxDepth depth use := by
  intro fits within
  exact (settled fits within).imp (fun known => (grown.map _).subset known) (fun known => (grown.map _).subset known)

theorem request_settled (inStep : walk.InStep) (user : User) (use : Use) :
    (walk.request index maxDepth user use).Settled index maxDepth user.depth use := by
  rcases request_effect index maxDepth inStep user use with ⟨settled, idle⟩ | registers
  · exact settled.mono (idle.cores use.kind ▸ List.prefix_refl _)
  · intro _ _
    rw [registers.added, List.map_append]
    exact .inl (List.mem_append_right _ List.mem_cons_self)

theorem Settled.idle {user : User} (settled : walk.Settled index maxDepth user.depth use) (inStep : walk.InStep) :
    walk.Idle (walk.request index maxDepth user use) := by
  rcases request_effect index maxDepth inStep user use with ⟨-, idle⟩ | registers
  · exact idle
  · exact absurd (settled registers.fits registers.within) (not_or.mpr ⟨registers.missing, registers.unowned⟩)

def settled (program : Program) (maxDepth : Nat) : Lasting program maxDepth where
  inv := InStep
  fine _ := True
  holds walk _ depth use := walk.Settled (.ofProgram program) maxDepth depth use
  inStep inStep := inStep
  step user use inStep _ := request_inStep _ maxDepth inStep user use
  answer user use inStep _ := request_settled inStep user use
  keep user use _ _ other inStep _ _ settled := by
    obtain ⟨added, grown, -⟩ := request_adds (.ofProgram program) maxDepth inStep user use other.kind
    exact settled.mono ⟨added, grown.symm⟩
  plain _ _ _ _ _ := trivial
  opened _ _ _ _ _ := trivial

end Walk

theorem Instantiation.addSite_recorded {site : UseSite} (recorded : site.span = Span.nowhere ∨ site ∈ inst.useSites) :
    inst.addSite site = inst := by
  apply if_pos
  simpa using recorded

theorem Instantiation.useSites_addSite (inst : Instantiation) (site : UseSite) :
    inst.useSites ⊆ (inst.addSite site).useSites ∧ (site.span = Span.nowhere ∨ site ∈ (inst.addSite site).useSites) := by
  by_cases recorded : site.span = Span.nowhere ∨ site ∈ inst.useSites
  · rw [addSite_recorded recorded]
    exact ⟨List.Subset.refl _, recorded⟩
  · have fresh : inst.addSite site = { inst with useSites := inst.useSites ++ [site] } := by
      apply if_neg
      simpa using recorded
    rw [fresh]
    exact ⟨List.subset_append_left _ _, .inr (List.mem_append_right _ (List.mem_singleton_self _))⟩

theorem Needed.mangled_eq {program : Program} (written : program.Written) {first second : Use}
    (here : Needed program first.kind first.name first.args) (there : Needed program second.kind second.name second.args)
    (same : first.key = second.key) : first.mangled = second.mangled := by
  simp only [Use.key, InstKey.mk.injEq] at same
  obtain ⟨-, name, key⟩ := same
  have types := (TypeExpr.listKey_eq_iff (here.keyed written) (there.keyed written)).mp key
  rw [TypeExpr.sameLists_iff_bare] at types
  rw [Use.mangled, Use.mangled, name, ← TypeExpr.mangle_bareAll, types, TypeExpr.mangle_bareAll]

namespace Walk

theorem InStep.find?_eq_some (inStep : walk.InStep) :
    (walk.insts.registry use.kind).find? use.name use.args = some inst ↔
      inst ∈ (walk.insts.registry use.kind).entries ∧ inst.key = use.key := by
  rw [Registry.find?, (inStep.valid use.kind).findKey?_eq_some, Registry.keyOf, inStep.kind]
  rfl

/-- A use is recorded with its instantiation, or its C name belongs to another one. -/
def Recorded (index : Index) (walk : Walk) (caller : Text) (use : Use) : Prop :=
  index.Fits use.kind use.name use.args →
    (∃ inst, (walk.insts.registry use.kind).find? use.name use.args = some inst ∧
      (use.site = Span.nowhere ∨ ⟨use.site, caller⟩ ∈ inst.useSites)) ∨
    (use.key ∉ (walk.cores use.kind).map (·.key) ∧ use.mangled ∈ (walk.cores use.kind).map (·.mangled))

theorem Recorded.still {user : User} (recorded : walk.Recorded index user.caller use) (inStep : walk.InStep)
    (maxDepth : Nat) (kind : InstKind) :
    (walk.request index maxDepth user use).insts.registry kind = walk.insts.registry kind := by
  have step := request_cases index maxDepth user walk use
  generalize walk.request index maxDepth user use = after at step ⊢
  cases step with
  | misfit wrong code | tooDeep fits deep missing => rw [report_insts]
  | @existing place inst fits known entry =>
    rcases recorded fits with ⟨other, same, site⟩ | ⟨missing, -⟩
    · rw [known] at same
      cases same
      have unchanged : (walk.insts.registry use.kind).entries.set place (inst.addSite ⟨use.site, user.caller⟩) =
          (walk.insts.registry use.kind).entries := by
        obtain ⟨inside, rfl⟩ := List.getElem?_eq_some_iff.mp entry
        rw [Instantiation.addSite_recorded site, List.set_getElem_self]
      rw [unchanged, Instantiations.setRegistry_registry]
    · rw [inStep.find?_eq_none.mpr missing] at known
      cases known
  | collision fits missing owned code => cases kind <;> rfl
  | created fits within missing unowned =>
    rcases recorded fits with ⟨other, same, site⟩ | ⟨-, owned⟩
    · rw [missing] at same
      cases same
    · exact absurd owned (inStep.findMangled?_eq_none.mp unowned)

theorem request_keeps (index : Index) (maxDepth : Nat) (walk : Walk) (user : User) (use : Use) {kind : InstKind}
    (member : inst ∈ (walk.insts.registry kind).entries) :
    ∃ later ∈ ((walk.request index maxDepth user use).insts.registry kind).entries,
      later.core = inst.core ∧ inst.useSites ⊆ later.useSites := by
  have step := request_cases index maxDepth user walk use
  generalize walk.request index maxDepth user use = after at step ⊢
  have same : ∀ {after : Walk}, inst ∈ (after.insts.registry kind).entries →
      ∃ later ∈ (after.insts.registry kind).entries, later.core = inst.core ∧ inst.useSites ⊆ later.useSites :=
    fun there => ⟨inst, there, rfl, List.Subset.refl _⟩
  cases step with
  | misfit wrong code | tooDeep fits deep missing => exact same (by rw [report_insts]; exact member)
  | @existing place old fits found entry =>
    rw [Instantiations.registry_setRegistry]
    split
    next equal =>
      subst equal
      obtain ⟨other, here⟩ := List.mem_iff_getElem?.mp member
      by_cases changed : place = other
      · subst changed
        rw [entry] at here
        cases here
        refine ⟨_, List.mem_set (List.getElem?_eq_some_iff.mp entry).1 _, Instantiation.core_addSite _ _, ?_⟩
        exact (Instantiation.useSites_addSite _ _).1
      · refine ⟨inst, List.mem_of_getElem? (i := other) ?_, rfl, List.Subset.refl _⟩
        rw [List.getElem?_set_ne changed]
        exact here
    · exact ⟨inst, member, rfl, List.Subset.refl _⟩
  | collision fits missing owned code => exact same (by cases kind <;> exact member)
  | created fits within missing unowned =>
    rw [Instantiations.registry_setRegistry]
    split
    next equal =>
      subst equal
      exact ⟨inst, List.mem_append_left _ member, rfl, List.Subset.refl _⟩
    · exact ⟨inst, member, rfl, List.Subset.refl _⟩

def DepthReported (walk : Walk) : Prop := ∃ report ∈ walk.reports, report.code = .depthExceeded

theorem cores_collisions (walk : Walk) (collisions : CollisionReports) (reports : List Diagnostic) (kind : InstKind) :
    cores { walk with insts := { walk.insts with collisions }, reports } kind = walk.cores kind := by
  cases kind <;> rfl

theorem request_recorded {program : Program} (sound : walk.Sound program) (user : User) (use : Use) :
    (walk.request (.ofProgram program) maxDepth user use).DepthReported ∨
      (walk.request (.ofProgram program) maxDepth user use).Recorded (.ofProgram program) user.caller use := by
  have next := request_inStep (.ofProgram program) maxDepth sound.inStep user use
  have step := request_cases (.ofProgram program) maxDepth user walk use
  generalize walk.request (.ofProgram program) maxDepth user use = after at step next ⊢
  cases step with
  | misfit wrong code => exact .inr fun fits => absurd fits wrong
  | tooDeep fits deep missing =>
    obtain ⟨report, member, same⟩ := report_reported walk (depthReport walk.insts maxDepth user use) sound.seen
    have code : report.code = (depthReport walk.insts maxDepth user use).code := congrArg Diagnostic.Identity.code same
    exact .inl ⟨report, member, code.trans (depthReport_shape walk.insts maxDepth user use).1⟩
  | @existing place inst fits known entry =>
    have site := (Instantiation.useSites_addSite inst ⟨use.site, user.caller⟩).2
    refine .inr fun _ => .inl ⟨inst.addSite ⟨use.site, user.caller⟩, ?_, site⟩
    rw [next.find?_eq_some, Instantiations.registry_setRegistry, if_pos rfl]
    refine ⟨List.mem_set (List.getElem?_eq_some_iff.mp entry).1 _, ?_⟩
    rw [(Instantiation.addSite_fields _ _).2.2.2.2.1]
    exact (sound.inStep.find?_eq_some.mp known).2
  | collision fits missing owned code =>
    refine .inr fun _ => .inr ?_
    rw [cores_collisions]
    refine ⟨sound.inStep.find?_eq_none.mp missing, ?_⟩
    by_contra unowned
    rw [sound.inStep.findMangled?_eq_none.mpr unowned] at owned
    cases owned
  | created fits within missing unowned =>
    have site : use.site = Span.nowhere ∨ ⟨use.site, user.caller⟩ ∈ ((walk.insts.registry use.kind).created use.name use.args
        ⟨use.site, user.caller⟩ user.origin).useSites := (Instantiation.useSites_addSite _ ⟨use.site, user.caller⟩).2
    refine .inr fun _ => .inl ⟨_, ?_, site⟩
    rw [next.find?_eq_some, Instantiations.registry_setRegistry, if_pos rfl]
    refine ⟨List.mem_append_right _ (List.mem_singleton_self _), ?_⟩
    simp [Registry.created, Registry.keyOf, sound.kind, Use.key]

/-- A use that was recorded stays so: entries keep their uses, and what is needed under its key has the C name that is
taken. -/
theorem Recorded.request {program : Program} (written : program.Written) {walk : Walk} (sound : walk.Sound program) (user : User)
    {use other : Use} {caller : Text}
    (fine : (Index.ofProgram program).Fits use.kind use.name use.args → Needed program use.kind use.name use.args)
    (needed : (Index.ofProgram program).Fits other.kind other.name other.args → Needed program other.kind other.name other.args)
    (recorded : walk.Recorded (.ofProgram program) caller other) :
    (walk.request (.ofProgram program) maxDepth user use).Recorded (.ofProgram program) caller other := by
  intro fits
  have inStep := sound.inStep
  have next := request_inStep (.ofProgram program) maxDepth inStep user use
  rcases recorded fits with ⟨inst, found, site⟩ | ⟨missing, owned⟩
  · obtain ⟨member, key⟩ := inStep.find?_eq_some.mp found
    obtain ⟨later, there, core, sites⟩ := request_keeps (.ofProgram program) maxDepth walk user use member
    refine .inl ⟨later, next.find?_eq_some.mpr ⟨there, ?_⟩, site.imp_right fun inside => sites inside⟩
    exact (congrArg Instantiation.key core).trans key
  · obtain ⟨added, grown, -⟩ := request_adds (.ofProgram program) maxDepth inStep user use other.kind
    refine .inr ⟨?_, ?_⟩
    · rcases request_effect (.ofProgram program) maxDepth inStep user use with ⟨-, idle⟩ | registers
      · rw [idle.cores]
        exact missing
      · by_cases same : other.kind = use.kind
        · rw [same, registers.added, List.map_append, List.mem_append, not_or, ← same]
          refine ⟨missing, ?_⟩
          intro equal
          have equal : other.key = use.key := List.mem_singleton.mp equal
          apply registers.unowned
          rw [← same, ← Needed.mangled_eq written (needed fits) (fine registers.fits) equal]
          exact owned
        · rw [registers.others _ same]
          exact missing
    · rw [grown, List.map_append]
      exact List.mem_append_left _ owned

def recorded {program : Program} (written : program.Written) (maxDepth : Nat) : Lasting program maxDepth where
  __ := answers program maxDepth
  holds walk caller _ use := walk.DepthReported ∨ walk.Recorded (.ofProgram program) caller use
  answer user use sound _ := request_recorded sound user use
  keep user use _ _ other sound fine needed holds := by
    rcases holds with ⟨report, member, code⟩ | recorded
    · exact .inl ⟨report, (request_passed sound fine maxDepth user).grows.reports member, code⟩
    · exact .inr (recorded.request written sound user fine needed)

/-- Requests that were answered before keep something the same. -/
structure Repeats (program : Program) (maxDepth : Nat) (Same : Walk → Prop) (Answered : Text → Nat → Use → Prop) : Prop where
  request : ∀ {walk} user {use}, Same walk → Answered user.caller user.depth use →
    Same (walk.request (.ofProgram program) maxDepth user use)
  plain : ∀ decl ∈ program.decls.filter (!·.isGeneric), ∀ use ∈ decl.toNode.uses (.ofProgram program) {},
    Answered decl.name 0 use
  opened : ∀ {walk kind inst node subst}, Same walk → inst ∈ (walk.insts.registry kind).entries →
    (Index.ofProgram program).specialized? inst = some (node, subst) → ∀ use ∈ node.uses (.ofProgram program) subst,
      Answered inst.mangled (inst.depth + 1) use

namespace Repeats

variable {program : Program} {maxDepth : Nat} {Same : Walk → Prop} {Answered : Text → Nat → Use → Prop}

theorem requests (repeats : Repeats program maxDepth Same Answered) (same : Same walk) (user : User) {uses : List Use}
    (answered : ∀ use ∈ uses, Answered user.caller user.depth use) :
    Same (uses.foldl (Walk.request (.ofProgram program) maxDepth user) walk) := by
  induction uses generalizing walk with
  | nil => exact same
  | cons use rest ih =>
    obtain ⟨here, answered⟩ := List.forall_mem_cons.mp answered
    exact ih (repeats.request user same here) answered

theorem collect (repeats : Repeats program maxDepth Same Answered) (same : Same walk) :
    Same (walk.collect program maxDepth) := by
  refine Walk.collect_keeps (fun {walk decl} member notGeneric same => ?_) same
  exact repeats.requests same { caller := decl.name } (repeats.plain decl (by simp [member, notGeneric]))

theorem expandFrom (repeats : Repeats program maxDepth Same Answered) (same : Same walk) (structs funcs : Nat) :
    Same (walk.expandFrom (.ofProgram program) maxDepth structs funcs) := by
  refine Walk.expandFrom_keeps (fun {walk} kind {inst} member same => ?_) same structs funcs
  unfold Walk.expandOne
  split
  · exact same
  next node subst found =>
    exact repeats.requests same { caller := inst.mangled, parent := some inst } (repeats.opened same member found)

theorem second (repeats : Repeats program maxDepth Same Answered) {insts : Instantiations} (same : Same { insts }) :
    ∀ second ∈ [GenericC.expand program maxDepth insts, GenericC.collect program maxDepth insts],
      ∃ walk : Walk, second = walk.result ∧ Same walk := by
  simp only [List.forall_mem_cons, List.not_mem_nil, false_implies, implies_true, and_true]
  exact ⟨⟨_, rfl, repeats.expandFrom same 0 0⟩, _, rfl, repeats.collect same⟩

end Repeats

/-- A walk that created nothing and has the entries of an earlier one, uses apart. -/
structure Again (first walk : Walk) : Prop where
  inStep : walk.InStep
  cores : ∀ kind, walk.cores kind = first.cores kind
  created : walk.created = []

theorem again_repeats {program : Program} {maxDepth : Nat} {first : Walk}
    (plain : ∀ decl ∈ program.decls.filter (!·.isGeneric), ∀ use ∈ decl.toNode.uses (.ofProgram program) {},
      first.Settled (.ofProgram program) maxDepth 0 use)
    (opened : ∀ kind, ∀ core ∈ first.cores kind, (settled program maxDepth).Answered first core) :
    Repeats program maxDepth first.Again (fun _ depth use => first.Settled (.ofProgram program) maxDepth depth use) where
  request {walk} user use again settled := by
    have grown : first.cores use.kind <+: walk.cores use.kind := by rw [again.cores]
    have idle := (settled.mono grown).idle again.inStep
    refine ⟨request_inStep _ maxDepth again.inStep user use, ?_, idle.created.trans again.created⟩
    exact fun kind => (idle.cores kind).trans (again.cores kind)
  plain := plain
  opened {walk kind inst node subst} again member found use inside := by
    have known : inst.core ∈ first.cores kind := again.cores kind ▸ List.mem_map_of_mem member
    exact (opened kind inst.core known found use inside).2

structure Unchanged (first walk : Walk) : Prop where
  inStep : walk.InStep
  registry : ∀ kind, walk.insts.registry kind = first.insts.registry kind

theorem Recorded.congr {caller : Text} (recorded : first.Recorded index caller use)
    (same : ∀ kind, walk.insts.registry kind = first.insts.registry kind) : walk.Recorded index caller use := by
  unfold Recorded cores at recorded ⊢
  simpa only [same] using recorded

theorem unchanged_repeats {program : Program} (maxDepth : Nat) {first : Walk}
    (plain : ∀ decl ∈ program.decls.filter (!·.isGeneric), ∀ use ∈ decl.toNode.uses (.ofProgram program) {},
      first.Recorded (.ofProgram program) decl.name use)
    (opened : ∀ kind, ∀ inst ∈ (first.insts.registry kind).entries, ∀ node subst,
      (Index.ofProgram program).specialized? inst = some (node, subst) → ∀ use ∈ node.uses (.ofProgram program) subst,
        first.Recorded (.ofProgram program) inst.mangled use) :
    Repeats program maxDepth first.Unchanged (fun caller _ use => first.Recorded (.ofProgram program) caller use) where
  request user use unchanged recorded := by
    have still := (recorded.congr unchanged.registry).still unchanged.inStep maxDepth
    refine ⟨request_inStep _ maxDepth unchanged.inStep user use, ?_⟩
    exact fun kind => (still kind).trans (unchanged.registry kind)
  plain := plain
  opened {walk kind inst node subst} unchanged member found :=
    opened kind inst (unchanged.registry kind ▸ member) node subst found

end Walk

theorem second_run_records_nothing {program : Program} (written : program.Written) {maxDepth : Nat}
    (shallow : ∀ report ∈ (prepare program maxDepth).reports, report.code ≠ .depthExceeded) :
    ∀ second ∈ [expand program maxDepth (prepare program maxDepth).insts, collect program maxDepth (prepare program maxDepth).insts],
      ∀ kind, second.insts.registry kind = (prepare program maxDepth).insts.registry kind := by
  obtain ⟨walk, result, sound, plain, opened⟩ := (Walk.recorded written maxDepth).prepare (Walk.sound_empty program)
  rw [result] at shallow ⊢
  have quiet : ¬ walk.DepthReported := by
    rintro ⟨report, member, code⟩
    exact shallow report (List.mem_reverse.mpr member) code
  have start : walk.Unchanged { insts := walk.result.insts } := ⟨⟨sound.valid, sound.kind⟩, fun _ => rfl⟩
  intro second member
  obtain ⟨after, rfl, unchanged⟩ := (Walk.unchanged_repeats maxDepth
    (fun decl member use inside => (plain decl member use inside).resolve_left quiet)
    (fun kind inst member node subst found use inside =>
      (opened kind inst.core (List.mem_map_of_mem member) found use inside).2.resolve_left quiet)).second start second member
  exact unchanged.registry

/-- Made once more, either pass registers nothing, and the entries are those of the first run, in the same order, with the
same keys, C names, depths and parents. If the program was read from a source and no use was too deep in the first run, not
even a use is added. -/
theorem second_run_registers_nothing (program : Program) (maxDepth : Nat) :
    let first := prepare program maxDepth
    ∀ second ∈ [expand program maxDepth first.insts, collect program maxDepth first.insts],
      second.created = [] ∧
      (∀ kind, (second.insts.registry kind).entries.map (·.core) = (first.insts.registry kind).entries.map (·.core)) ∧
      ((∃ settings file content, program = (parseFile settings file content).program) →
        (∀ report ∈ first.reports, report.code ≠ .depthExceeded) →
        ∀ kind, second.insts.registry kind = first.insts.registry kind) := by
  intro first second member
  obtain ⟨walk, result, inStep, plain, opened⟩ := (Walk.settled program maxDepth).prepare
    (Walk.sound_empty program).inStep
  have start : walk.Again { insts := first.insts } := by
    rw [show first = walk.result from result]
    exact ⟨⟨inStep.valid, inStep.kind⟩, fun _ => rfl, rfl⟩
  obtain ⟨after, rfl, again⟩ := (Walk.again_repeats plain opened).second start second member
  refine ⟨List.reverse_eq_nil_iff.mpr again.created, ?_, ?_⟩
  · intro kind
    rw [show first = walk.result from result]
    exact again.cores kind
  · rintro ⟨settings, file, content, rfl⟩ shallow
    exact second_run_records_nothing (parseFile_written settings file content) shallow _ member

/-- The crate and its box, each with the one use that it had. -/
theorem nestedBoxes_second_run :
    let program := (parseFile {} 0 nestedBoxes).program
    let first := prepare program 64
    (∀ report ∈ first.reports, report.code ≠ .depthExceeded) ∧
      ∀ kind, (expand program 64 first.insts).insts.registry kind = first.insts.registry kind := by
  intro program first
  have run := prepare_within program 64
    (fun result => result.reports.all fun report => decide (report.code ≠ .depthExceeded)) 3 (by decide +kernel)
  have shallow : ∀ report ∈ first.reports, report.code ≠ .depthExceeded := by simpa using run
  refine ⟨shallow, ?_⟩
  exact (second_run_registers_nothing program 64 _ List.mem_cons_self).2.2 ⟨{}, 0, nestedBoxes, rfl⟩ shallow

/-- Names that no source can hold. In the key of a list of types and in a C name they run together. -/
def mixedNames : Program :=
  let generic (name : Text) (params : List Text) : Decl :=
    .struct { isUnion := false, name, typeParams := params.map fun name => ⟨name, Span.nowhere⟩, fields := some [] }
  let use (name : Text) (args : List Text) (place : UInt32) : Decl :=
    let type := TypeExpr.applied name (args.map fun name => .named name Span.nowhere) ⟨0, place, place + 1⟩
    .typedef { target := .type type, name := "t", loc := Span.nowhere }
  { decls := [generic "G_a;b" ["T"], generic "G" ["T", "U"], use "G_a;b" ["c"] 1, use "G" ["a;b", "c"] 2,
      use "G" ["a", "b;c"] 3] }

/-- The second use is refused at first, since its C name is taken. The third one has the same key and another C name, so it
is registered, and when the uses are looked through again, the second one is recorded with it. -/
theorem mixedNames_recorded_later :
    let first := prepare mixedNames 64
    (∀ report ∈ first.reports, report.code ≠ .depthExceeded) ∧
      ((collect mixedNames 64 first.insts).insts.registry .struct).entries.map (·.useSites) ≠
        (first.insts.registry .struct).entries.map (·.useSites) := by
  intro first
  have run := prepare_within mixedNames 64 (fun first =>
    first.reports.all (fun report => decide (report.code ≠ .depthExceeded)) &&
    decide (((collect mixedNames 64 first.insts).insts.registry .struct).entries.map (·.useSites) ≠
      (first.insts.registry .struct).entries.map (·.useSites))) 3 (by decide +kernel)
  simpa using run

end GenericC
