import GenericC.Generics.Expansion
import GenericC.Proofs.RegistryInvariant

/-! One request of a pass over a program, and what it can come to. All that a request ever does to an entry that is
registered is to record a use, so the entries without their uses only grow at the end. An answer to a use that lasts while
they grow is there when both passes have ended, for every use that was met. -/

namespace GenericC

variable {inst : Instantiation} {program : Program}

def Index.Fits (index : Index) (kind : InstKind) (name : Text) (args : List TypeExpr) : Prop :=
  (index.paramsOf kind name).length = args.length

def Index.declaration? (index : Index) (kind : InstKind) (name : Text) : Option (Node × List TypeParam) :=
  match kind with
  | .struct => (index.struct? name).map fun decl => (decl.toNode, decl.typeParams)
  | .func => (index.func? name).map fun decl => (decl.toNode, decl.typeParams)

/-- An instantiation without its uses. This much never changes once it is registered. -/
def Instantiation.core (inst : Instantiation) : Instantiation := { inst with useSites := [] }

@[simp] theorem Instantiation.core_addSite (inst : Instantiation) (site : UseSite) : (inst.addSite site).core = inst.core := by
  unfold addSite
  split <;> rfl

def Registry.cores (registry : Registry) : List Instantiation := registry.entries.map (·.core)

theorem Registry.keys_eq (registry : Registry) : registry.keys = registry.cores.map (·.key) := by
  rw [cores, List.map_map]
  rfl

theorem Registry.names_eq (registry : Registry) : registry.names = registry.cores.map (·.mangled) := by
  rw [cores, List.map_map]
  rfl

theorem specialized?_core (index : Index) (inst : Instantiation) : index.specialized? inst.core = index.specialized? inst := rfl

theorem specialized?_eq_some {index : Index} {node : Node} {subst : Subst} :
    index.specialized? inst = some (node, subst) ↔ ∃ params, index.declaration? inst.kind inst.genericName = some (node, params) ∧
      params.length = inst.typeArgs.length ∧ subst = .ofParams params inst.typeArgs := by
  refine Option.bind_eq_some_iff.trans ?_
  constructor
  · rintro ⟨⟨found, params⟩, declared, same⟩
    dsimp only at same
    split at same
    next fits =>
      cases same
      exact ⟨params, declared, fits, rfl⟩
    · cases same
  · rintro ⟨params, declared, fits, rfl⟩
    exact ⟨(node, params), declared, if_pos fits⟩

namespace Instantiations

theorem registry_setRegistry (insts : Instantiations) (kind other : InstKind) (registry : Registry) :
    (insts.setRegistry kind registry).registry other = if other = kind then registry else insts.registry other := by
  cases kind <;> cases other <;> rfl

theorem setRegistry_registry (insts : Instantiations) (kind : InstKind) :
    insts.setRegistry kind (insts.registry kind) = insts := by
  cases kind <;> rfl

end Instantiations

namespace Use

def key (use : Use) : InstKey := ⟨use.kind, use.name, TypeExpr.listKey use.args⟩

def mangled (use : Use) : Text := mangle use.name use.args

def core (use : Use) (user : User) : Instantiation :=
  { kind := use.kind, genericName := use.name, typeArgs := use.args, mangled := use.mangled, key := use.key
    depth := user.depth, parent := user.parent.map (·.key) }

end Use

namespace Walk

variable {walk after : Walk} {kind : InstKind}

/-- The views of both registries are in step. -/
structure InStep (walk : Walk) : Prop where
  valid : ∀ kind, (walk.insts.registry kind).Valid
  kind : ∀ kind, (walk.insts.registry kind).kind = kind

theorem InStep.congr (inStep : walk.InStep)
    (same : ∀ kind, after.insts.registry kind = walk.insts.registry kind) : after.InStep := by
  constructor <;> intro kind <;> rw [same]
  · exact inStep.valid kind
  · exact inStep.kind kind

theorem InStep.put (inStep : walk.InStep) {registry : Registry} (valid : registry.Valid) (same : registry.kind = kind)
    {created : List Instantiation} : InStep { walk with insts := walk.insts.setRegistry kind registry, created } := by
  constructor <;> intro other <;> rw [Instantiations.registry_setRegistry] <;> split
  · exact valid
  · exact inStep.valid other
  next equal => rw [same, equal]
  · exact inStep.kind other

/-- What a request can come to: it has the wrong number of arguments, it is too deep, it is registered already, its C name
is taken, or it is registered. -/
inductive Requested (index : Index) (maxDepth : Nat) (user : User) (walk : Walk) (use : Use) (registry : Registry) :
    Walk → Prop where
  | misfit {problem : Diagnostic} (wrong : ¬ index.Fits use.kind use.name use.args)
      (code : problem.code = .arityMismatch) (error : problem.severity = .error) :
      Requested index maxDepth user walk use registry (walk.report problem)
  | tooDeep (fits : index.Fits use.kind use.name use.args) (deep : maxDepth < user.depth)
      (missing : registry.find? use.name use.args = none) :
      Requested index maxDepth user walk use registry (walk.report (depthReport walk.insts maxDepth user use))
  | existing {place : Nat} {inst : Instantiation} (fits : index.Fits use.kind use.name use.args)
      (known : registry.find? use.name use.args = some inst) (entry : registry.entries[place]? = some inst) :
      Requested index maxDepth user walk use registry { walk with
        insts := walk.insts.setRegistry use.kind { registry with
          entries := registry.entries.set place (inst.addSite ⟨use.site, user.caller⟩) } }
  | collision {problem : Diagnostic} (fits : index.Fits use.kind use.name use.args)
      (missing : registry.find? use.name use.args = none) (owned : (registry.findMangled? use.mangled).isSome)
      (code : problem.code = .mangleCollision) (error : problem.severity = .error) :
      Requested index maxDepth user walk use registry { walk with
        insts := { walk.insts with collisions := (walk.insts.collisions.accept problem).1 }
        reports := (walk.insts.collisions.accept problem).2 ++ walk.reports }
  | created (fits : index.Fits use.kind use.name use.args) (within : user.depth ≤ maxDepth)
      (missing : registry.find? use.name use.args = none) (unowned : registry.findMangled? use.mangled = none) :
      Requested index maxDepth user walk use registry { walk with
        insts := walk.insts.setRegistry use.kind { registry with
          entries := registry.entries ++ [registry.created use.name use.args ⟨use.site, user.caller⟩ user.origin]
          byKey := registry.byKey ++ [(registry.keyOf use.name use.args, registry.size)]
          byMangled := registry.byMangled ++ [(mangle use.name use.args, registry.size)] }
        created := registry.created use.name use.args ⟨use.site, user.caller⟩ user.origin :: walk.created }

theorem arityError?_eq_none : Subst.arityError? params args = none ↔ params.length = args.length := by
  simp [Subst.arityError?]

theorem request_cases (index : Index) (maxDepth : Nat) (user : User) (walk : Walk) (use : Use) :
    Requested index maxDepth user walk use (walk.insts.registry use.kind) (walk.request index maxDepth user use) := by
  unfold request
  split
  next error found =>
    refine .misfit ?_ rfl rfl
    intro fits
    rw [arityError?_eq_none.mpr fits] at found
    cases found
  next none =>
    have fits : index.Fits use.kind use.name use.args := arityError?_eq_none.mp none
    unfold admitUse
    split
    next deep =>
      simp only [Bool.and_eq_true, decide_eq_true_eq, Option.isNone_iff_eq_none] at deep
      exact .tooDeep fits deep.1 deep.2
    next allowed =>
      have step := Registry.register_cases (walk.insts.registry use.kind) use.name use.args ⟨use.site, user.caller⟩ user.origin
      unfold Instantiations.register
      generalize (walk.insts.registry use.kind).register use.name use.args ⟨use.site, user.caller⟩ user.origin = outcome at step ⊢
      cases step with
      | existing known entry => exact .existing fits known entry
      | collision missing owned =>
        dsimp only
        rw [Instantiations.setRegistry_registry]
        obtain ⟨code, error⟩ := Registry.collisionReport_shape (walk.insts.registry use.kind) use.name use.args _ _
        exact .collision fits missing (Option.isSome_of_eq_some owned) code error
      | created missing unowned =>
        refine .created fits ?_ missing unowned
        by_contra deep
        apply allowed
        simp only [Bool.and_eq_true, decide_eq_true_eq, Option.isNone_iff_eq_none]
        exact ⟨Nat.lt_of_not_le deep, missing⟩

theorem request_inStep (index : Index) (maxDepth : Nat) (inStep : walk.InStep) (user : User) (use : Use) :
    (walk.request index maxDepth user use).InStep := by
  have valid := inStep.valid use.kind
  have step := request_cases index maxDepth user walk use
  generalize walk.request index maxDepth user use = after at step ⊢
  cases step with
  | misfit | tooDeep => exact inStep.congr fun kind => by rw [report_insts]
  | existing fits known entry => exact inStep.put (valid.existing entry _) (inStep.kind use.kind)
  | collision => exact inStep.congr fun kind => by cases kind <;> rfl
  | created fits within missing unowned =>
    exact inStep.put (valid.created (valid.findKey?_eq_none.mp missing) (valid.findMangled?_eq_none.mp unowned))
      (inStep.kind use.kind)

def cores (walk : Walk) (kind : InstKind) : List Instantiation := (walk.insts.registry kind).cores

theorem InStep.find?_eq_none (inStep : walk.InStep) {use : Use} :
    (walk.insts.registry use.kind).find? use.name use.args = none ↔ use.key ∉ (walk.cores use.kind).map (·.key) := by
  rw [Registry.find?, (inStep.valid use.kind).findKey?_eq_none, Registry.keys_eq, Registry.keyOf, inStep.kind]
  rfl

theorem InStep.findMangled?_eq_none (inStep : walk.InStep) {use : Use} :
    (walk.insts.registry use.kind).findMangled? use.mangled = none ↔ use.mangled ∉ (walk.cores use.kind).map (·.mangled) := by
  rw [(inStep.valid use.kind).findMangled?_eq_none, Registry.names_eq]
  rfl

variable (index : Index) (maxDepth : Nat)

/-- What a request registers, unless something stands in its way. -/
structure Registers (user : User) (walk : Walk) (use : Use) (after : Walk) : Prop where
  fits : index.Fits use.kind use.name use.args
  within : user.depth ≤ maxDepth
  missing : use.key ∉ (walk.cores use.kind).map (·.key)
  unowned : use.mangled ∉ (walk.cores use.kind).map (·.mangled)
  added : after.cores use.kind = walk.cores use.kind ++ [use.core user]
  others : ∀ kind, kind ≠ use.kind → after.cores kind = walk.cores kind
  recorded : ∃ inst, after.created = inst :: walk.created ∧ inst.core = use.core user

/-- On a level within the bound a use is registered already, or its C name is taken. -/
def Settled (walk : Walk) (depth : Nat) (use : Use) : Prop :=
  index.Fits use.kind use.name use.args → depth ≤ maxDepth →
    use.key ∈ (walk.cores use.kind).map (·.key) ∨ use.mangled ∈ (walk.cores use.kind).map (·.mangled)

structure Idle (before after : Walk) : Prop where
  cores : ∀ kind, after.cores kind = before.cores kind
  created : after.created = before.created

/-- A request registers something unless its use is settled, and then it leaves all entries as they are. -/
theorem request_effect (inStep : walk.InStep) (user : User) (use : Use) :
    (walk.Settled index maxDepth user.depth use ∧ walk.Idle (walk.request index maxDepth user use)) ∨
    Registers index maxDepth user walk use (walk.request index maxDepth user use) := by
  have step := request_cases index maxDepth user walk use
  generalize walk.request index maxDepth user use = after at step ⊢
  have silent : ∀ problem, walk.Idle (walk.report problem) := by
    intro problem
    constructor
    · intro kind
      rw [cores, report_insts, cores]
    · unfold report
      split <;> rfl
  cases step with
  | misfit wrong code => exact .inl ⟨fun fits => absurd fits wrong, silent _⟩
  | tooDeep fits deep missing => exact .inl ⟨fun _ within => absurd within (Nat.not_le_of_lt deep), silent _⟩
  | existing fits known entry =>
    refine .inl ⟨fun _ _ => .inl ?_, ?_, rfl⟩
    · by_contra missing
      rw [inStep.find?_eq_none.mpr missing] at known
      cases known
    intro kind
    rw [cores, cores, Instantiations.registry_setRegistry]
    split
    next equal =>
      subst equal
      exact Registry.map_set _ entry (Instantiation.core_addSite _ _)
    · rfl
  | collision fits missing owned code =>
    refine .inl ⟨fun _ _ => .inr ?_, fun kind => by cases kind <;> rfl, rfl⟩
    by_contra unowned
    rw [inStep.findMangled?_eq_none.mpr unowned] at owned
    cases owned
  | created fits within missing unowned =>
    have core : ((walk.insts.registry use.kind).created use.name use.args ⟨use.site, user.caller⟩ user.origin).core =
        use.core user := by
      simp only [Registry.created, Instantiation.core_addSite, Registry.keyOf, inStep.kind]
      rfl
    refine .inr ⟨fits, within, inStep.find?_eq_none.mp missing, inStep.findMangled?_eq_none.mp unowned, ?_, ?_, _, rfl, core⟩
    · rw [cores, Instantiations.registry_setRegistry, if_pos rfl, Registry.cores, List.map_append, List.map_singleton, core]
      rfl
    · intro kind other
      rw [cores, cores, Instantiations.registry_setRegistry, if_neg other]

/-- Entries that were found in one declaration stand behind those from before, all on one level within the bound. -/
structure Adds (user : User) (kind : InstKind) (added : List Instantiation) : Prop where
  kind : ∀ core ∈ added, core.kind = kind
  depth : ∀ core ∈ added, core.depth = user.depth
  parent : ∀ core ∈ added, core.parent = user.parent.map (·.key)
  within : added ≠ [] → user.depth ≤ maxDepth

variable {maxDepth} in
theorem Adds.nil (user : User) (kind : InstKind) : Adds maxDepth user kind [] := by
  constructor <;> simp

variable {maxDepth} in
theorem Adds.append {user : User} {kind : InstKind} {early late : List Instantiation} (first : Adds maxDepth user kind early)
    (second : Adds maxDepth user kind late) : Adds maxDepth user kind (early ++ late) where
  kind := List.forall_mem_append.mpr ⟨first.kind, second.kind⟩
  depth := List.forall_mem_append.mpr ⟨first.depth, second.depth⟩
  parent := List.forall_mem_append.mpr ⟨first.parent, second.parent⟩
  within some := by
    by_cases none : early = []
    · exact second.within (by simpa [none] using some)
    · exact first.within none

theorem request_adds (inStep : walk.InStep) (user : User) (use : Use) (kind : InstKind) :
    ∃ added, (walk.request index maxDepth user use).cores kind = walk.cores kind ++ added ∧ Adds maxDepth user kind added := by
  rcases request_effect index maxDepth inStep user use with ⟨-, idle⟩ | registers
  · exact ⟨[], by rw [idle.cores, List.append_nil], .nil user kind⟩
  · by_cases equal : kind = use.kind
    · subst equal
      exact ⟨[use.core user], registers.added, List.forall_mem_singleton.mpr rfl, List.forall_mem_singleton.mpr rfl,
        List.forall_mem_singleton.mpr rfl, fun _ => registers.within⟩
    · exact ⟨[], by rw [registers.others kind equal, List.append_nil], .nil user kind⟩

theorem requests_add (inStep : walk.InStep) (user : User) (uses : List Use) :
    let after := uses.foldl (request index maxDepth user) walk
    after.InStep ∧ ∀ kind, ∃ added, after.cores kind = walk.cores kind ++ added ∧ Adds maxDepth user kind added := by
  induction uses generalizing walk with
  | nil => exact ⟨inStep, fun kind => ⟨[], (List.append_nil _).symm, .nil user kind⟩⟩
  | cons use rest ih =>
    obtain ⟨final, grown⟩ := ih (request_inStep index maxDepth inStep user use)
    refine ⟨final, ?_⟩
    intro kind
    obtain ⟨early, first, fine⟩ := request_adds index maxDepth inStep user use kind
    obtain ⟨late, second, also⟩ := grown kind
    refine ⟨early ++ late, ?_, fine.append also⟩
    rw [List.foldl_cons, second, first, List.append_assoc]

theorem expandOne_adds (inStep : walk.InStep) (inst : Instantiation) :
    let after := walk.expandOne index maxDepth inst
    after.InStep ∧ ∀ kind, ∃ added, after.cores kind = walk.cores kind ++ added ∧
      Adds maxDepth { caller := inst.mangled, parent := some inst } kind added := by
  unfold expandOne
  split
  · exact ⟨inStep, fun kind => ⟨[], (List.append_nil _).symm, .nil _ kind⟩⟩
  · exact requests_add index maxDepth inStep _ _

variable {index maxDepth} {holds : Walk → Prop}

theorem collect_keeps {program : Program}
    (visit : ∀ {walk : Walk} {decl : Decl}, decl ∈ program.decls → decl.isGeneric = false → holds walk →
      holds ((decl.toNode.uses (.ofProgram program) {}).foldl
        (request (.ofProgram program) maxDepth { caller := decl.name }) walk)) (start : holds walk) :
    holds (walk.collect program maxDepth) := by
  have plain : ∀ decl ∈ program.decls.filter (!·.isGeneric), decl ∈ program.decls ∧ decl.isGeneric = false := by
    simp
  unfold collect
  dsimp only
  generalize program.decls.filter (!·.isGeneric) = decls at plain
  induction decls generalizing walk with
  | nil => exact start
  | cons decl rest ih =>
    obtain ⟨⟨member, notGeneric⟩, plain⟩ := List.forall_mem_cons.mp plain
    exact ih (visit member notGeneric start) plain

theorem expandFrom_keeps
    (expandOne : ∀ {walk : Walk} (kind : InstKind) {inst : Instantiation}, inst ∈ (walk.insts.registry kind).entries →
      holds walk → holds (walk.expandOne index maxDepth inst)) (start : holds walk) (structs funcs : Nat) :
    holds (walk.expandFrom index maxDepth structs funcs) := by
  fun_induction Walk.expandFrom index maxDepth walk structs funcs with
  | case1 walk structs funcs inst found ih => exact ih (expandOne .struct (List.mem_of_getElem? found) start)
  | case2 walk structs funcs missing inst found ih => exact ih (expandOne .func (List.mem_of_getElem? found) start)
  | case3 walk => exact start

/-- An answer that a use gets when it is met, for its caller and on its level, and that every later request keeps. -/
structure Lasting (program : Program) (maxDepth : Nat) where
  inv : Walk → Prop
  fine : Use → Prop
  holds : Walk → Text → Nat → Use → Prop
  inStep : ∀ {walk}, inv walk → walk.InStep
  step : ∀ {walk} user {use}, inv walk → fine use → inv (walk.request (.ofProgram program) maxDepth user use)
  answer : ∀ {walk} user {use}, inv walk → fine use →
    holds (walk.request (.ofProgram program) maxDepth user use) user.caller user.depth use
  keep : ∀ {walk} user {use caller depth other}, inv walk → fine use → fine other → holds walk caller depth other →
    holds (walk.request (.ofProgram program) maxDepth user use) caller depth other
  plain : ∀ decl ∈ program.decls, decl.isGeneric = false → ∀ use ∈ decl.toNode.uses (.ofProgram program) {}, fine use
  opened : ∀ {walk kind inst node subst}, inv walk → inst ∈ (walk.insts.registry kind).entries →
    (Index.ofProgram program).specialized? inst = some (node, subst) → ∀ use ∈ node.uses (.ofProgram program) subst, fine use

namespace Lasting

variable (lasting : Lasting program maxDepth)

structure Later (walk after : Walk) : Prop where
  inv : lasting.inv after
  keep : ∀ {caller depth use}, lasting.fine use → lasting.holds walk caller depth use → lasting.holds after caller depth use
  cores : ∀ kind, walk.cores kind <+: after.cores kind

def Met (walk : Walk) (caller : Text) (depth : Nat) (uses : List Use) : Prop :=
  ∀ use ∈ uses, lasting.fine use ∧ lasting.holds walk caller depth use

def Answered (walk : Walk) (core : Instantiation) : Prop :=
  ∀ ⦃node subst⦄, (Index.ofProgram program).specialized? core = some (node, subst) →
    lasting.Met walk core.mangled (core.depth + 1) (node.uses (.ofProgram program) subst)

structure Reached (walk : Walk) (places : InstKind → Nat) : Prop where
  inside : ∀ kind, places kind ≤ (walk.cores kind).length
  answered : ∀ kind, ∀ core ∈ (walk.cores kind).take (places kind), lasting.Answered walk core

variable {lasting}

theorem Later.refl (inv : lasting.inv walk) : lasting.Later walk walk :=
  ⟨inv, fun _ holds => holds, fun _ => List.prefix_rfl⟩

theorem Later.trans {first second third : Walk} (early : lasting.Later first second) (late : lasting.Later second third) :
    lasting.Later first third where
  inv := late.inv
  keep fine holds := late.keep fine (early.keep fine holds)
  cores kind := (early.cores kind).trans (late.cores kind)

theorem Later.met {caller : Text} {depth : Nat} {uses : List Use} (later : lasting.Later walk after)
    (met : lasting.Met walk caller depth uses) : lasting.Met after caller depth uses :=
  fun use member => ⟨(met use member).1, later.keep (met use member).1 (met use member).2⟩

theorem Later.foldl {α : Type} {step : Walk → α → Walk} {items : List α} (answered : Walk → α → Prop)
    (keep : ∀ {walk after item}, lasting.Later walk after → answered walk item → answered after item)
    (each : ∀ item ∈ items, ∀ {walk}, lasting.inv walk → lasting.Later walk (step walk item) ∧ answered (step walk item) item)
    (inv : lasting.inv walk) :
    lasting.Later walk (items.foldl step walk) ∧ ∀ item ∈ items, answered (items.foldl step walk) item := by
  induction items generalizing walk with
  | nil => exact ⟨.refl inv, List.forall_mem_nil _⟩
  | cons first rest ih =>
    rw [List.forall_mem_cons] at each
    obtain ⟨here, met⟩ := each.1 inv
    obtain ⟨later, all⟩ := ih each.2 here.inv
    exact ⟨here.trans later, List.forall_mem_cons.mpr ⟨keep later met, all⟩⟩

theorem requests (inv : lasting.inv walk) (user : User) {uses : List Use} (fine : ∀ use ∈ uses, lasting.fine use) :
    let after := uses.foldl (request (.ofProgram program) maxDepth user) walk
    lasting.Later walk after ∧ lasting.Met after user.caller user.depth uses := by
  refine Later.foldl (fun walk use => lasting.fine use ∧ lasting.holds walk user.caller user.depth use)
    (fun later met => ⟨met.1, later.keep met.1 met.2⟩) (fun use member walk inv => ?_) inv
  have here := fine use member
  refine ⟨⟨lasting.step user inv here, lasting.keep user inv here, fun kind => ?_⟩, here, lasting.answer user inv here⟩
  obtain ⟨added, grown, -⟩ := request_adds (.ofProgram program) maxDepth (lasting.inStep inv) user use kind
  exact ⟨added, grown.symm⟩

theorem expandOne (kind : InstKind) (inv : lasting.inv walk) (member : inst ∈ (walk.insts.registry kind).entries) :
    let after := walk.expandOne (.ofProgram program) maxDepth inst
    lasting.Later walk after ∧ lasting.Answered after inst.core := by
  unfold Walk.expandOne
  split
  next none =>
    refine ⟨.refl inv, ?_⟩
    intro node subst found
    rw [specialized?_core, none] at found
    cases found
  next node subst known =>
    obtain ⟨later, met⟩ := lasting.requests inv { caller := inst.mangled, parent := some inst }
      (lasting.opened inv member known)
    refine ⟨later, ?_⟩
    intro other bound found
    rw [specialized?_core, known] at found
    cases found
    exact met

theorem Reached.step (kind : InstKind) {places next : InstKind → Nat} (reached : lasting.Reached walk places)
    (found : (walk.insts.registry kind).entries[places kind]? = some inst) (later : lasting.Later walk after)
    (answered : lasting.Answered after inst.core) (here : next kind = places kind + 1)
    (others : ∀ other, other ≠ kind → next other = places other) : lasting.Reached after next := by
  have entry : (walk.cores kind)[places kind]? = some inst.core := by
    rw [Walk.cores, Registry.cores, List.getElem?_map, found]
    rfl
  have inside (other : InstKind) : next other ≤ (walk.cores other).length := by
    by_cases same : other = kind
    · rw [same, here]
      exact (List.getElem?_eq_some_iff.mp entry).1
    · rw [others other same]
      exact reached.inside other
  refine ⟨fun other => Nat.le_trans (inside other) (later.cores other).length_le, fun other core member => ?_⟩
  have old (below : core ∈ (walk.cores other).take (places other)) : lasting.Answered after core :=
    fun _ _ found => later.met (reached.answered other core below found)
  obtain ⟨more, grown⟩ := later.cores other
  rw [← grown, List.take_append_of_le_length (inside other)] at member
  by_cases same : other = kind
  · subst same
    rw [here, List.take_add_one, entry] at member
    rcases List.mem_append.mp member with below | new
    · exact old below
    · rw [show core = inst.core by simpa using new]
      exact answered
  · rw [others other same] at member
    exact old member

def places (structs funcs : Nat) : InstKind → Nat
  | .struct => structs
  | .func => funcs

/-- Structs first, then functions: whatever is registered on the way lies at the end and is expanded later. -/
theorem expandFrom (inv : lasting.inv walk) {structs funcs : Nat} (reached : lasting.Reached walk (places structs funcs)) :
    let after := walk.expandFrom (.ofProgram program) maxDepth structs funcs
    lasting.Later walk after ∧ ∀ kind, ∀ core ∈ after.cores kind, lasting.Answered after core := by
  fun_induction Walk.expandFrom (.ofProgram program) maxDepth walk structs funcs with
  | case1 walk structs funcs inst found ih =>
    obtain ⟨later, next⟩ := lasting.expandOne .struct inv (List.mem_of_getElem? found)
    obtain ⟨final, all⟩ := ih later.inv
      (reached.step .struct found later next rfl fun other => by cases other <;> simp [places])
    exact ⟨later.trans final, all⟩
  | case2 walk structs funcs missing inst found ih =>
    obtain ⟨later, next⟩ := lasting.expandOne .func inv (List.mem_of_getElem? found)
    obtain ⟨final, all⟩ := ih later.inv
      (reached.step .func found later next rfl fun other => by cases other <;> simp [places])
    exact ⟨later.trans final, all⟩
  | case3 walk structs funcs noStruct noFunc =>
    refine ⟨.refl inv, fun kind core member => reached.answered kind core ?_⟩
    rw [List.take_of_length_le]
    · exact member
    · rw [Walk.cores, Registry.cores, List.length_map]
      cases kind with
      | struct => exact List.getElem?_eq_none_iff.mp noStruct
      | func => exact List.getElem?_eq_none_iff.mp noFunc

theorem collect (inv : lasting.inv walk) :
    let after := walk.collect program maxDepth
    lasting.Later walk after ∧ ∀ decl ∈ program.decls.filter (!·.isGeneric),
      lasting.Met after decl.name 0 (decl.toNode.uses (.ofProgram program) {}) := by
  refine Later.foldl (fun walk (decl : Decl) => lasting.Met walk decl.name 0 (decl.toNode.uses (.ofProgram program) {})) Later.met
    (fun decl member walk inv => ?_) inv
  obtain ⟨member, plain⟩ := List.mem_filter.mp member
  exact lasting.requests inv { caller := decl.name } (lasting.plain decl member (by simpa using plain))

variable (lasting) in
/-- What both passes leave: every use in a plain declaration and in the declaration of what is registered has an answer. -/
theorem prepare (start : lasting.inv { insts := { collisions := .once [] } }) :
    ∃ walk : Walk, GenericC.prepare program maxDepth = walk.result ∧ lasting.inv walk ∧
      (∀ decl ∈ program.decls.filter (!·.isGeneric), ∀ use ∈ decl.toNode.uses (.ofProgram program) {},
        lasting.holds walk decl.name 0 use) ∧
      ∀ kind, ∀ core ∈ walk.cores kind, lasting.Answered walk core := by
  obtain ⟨collected, plain⟩ := lasting.collect start
  have none (kind : InstKind) : places 0 0 kind = 0 := by cases kind <;> rfl
  obtain ⟨expanded, all⟩ := lasting.expandFrom collected.inv
    ⟨fun kind => none kind ▸ Nat.zero_le _, fun kind core member => by rw [none] at member; cases member⟩
  refine ⟨_, rfl, expanded.inv, ?_, all⟩
  exact fun decl member use inside => (expanded.met (plain decl member) use inside).2

end Lasting

end Walk
end GenericC
