import GenericC.Generics.Rank
import GenericC.Generics.Uses

/-! Which instantiations a program needs. Those used in its text come first. Each instantiation is a
declaration with its type parameters replaced, and what is used there is needed too, one level
deeper. Generic code may ask for ever larger types, so the depth is bounded: a use below the
bound is reported and not registered. Every use that is registered lies on a level within the
bound, and that is why the expansion ends. -/

namespace GenericC

def defaultDepth : Nat := 64

/-- The bound that a setting stands for; zero or less means the usual one. -/
def depthFor (setting : Int) : Nat := if setting ≤ 0 then defaultDepth else setting.toNat

structure Walk where
  insts : Instantiations
  /-- What was reported already, latest first. The same problem is reported once. -/
  seen : List Diagnostic.Identity := []
  reports : List Diagnostic := []
  created : List Instantiation := []
deriving Repr

structure User where
  caller : Text
  parent : Option Instantiation := none
deriving Repr

namespace User

def depth (user : User) : Nat :=
  match user.parent with
  | some parent => parent.depth + 1
  | none => 0

def origin (user : User) : Origin := { depth := user.depth, parent := user.parent.map (·.key) }

end User

namespace Walk

def report (walk : Walk) (problem : Diagnostic) : Walk :=
  if walk.seen.contains problem.identity then walk
  else { walk with seen := problem.identity :: walk.seen, reports := problem :: walk.reports }

/-- A use that is too deep, with the place where the chain of instantiations starts. -/
def depthReport (insts : Instantiations) (maxDepth : Nat) (user : User) (use : Use) : Diagnostic :=
  let report := Diagnostic.ofError .depthExceeded use.site
    (Text.concat ["instantiating ", (TypeExpr.apply use.name use.args).render, " exceeds the maximum depth of ",
      Text.ofNat maxDepth])
  match user.parent.bind insts.root? with
  | none => report
  | some root =>
    if root.firstSite = Span.nowhere then report
    else report.withNote root.firstSite (Text.concat ["chain starts at ", root.render])

def admitUse (maxDepth : Nat) (user : User) (walk : Walk) (use : Use) : Walk :=
  if maxDepth < user.depth && ((walk.insts.registry use.kind).find? use.name use.args).isNone then
    walk.report (depthReport walk.insts maxDepth user use)
  else
    let (insts, result, reports) := walk.insts.register use.kind use.name use.args ⟨use.site, user.caller⟩ user.origin
    { walk with
      insts
      reports := reports ++ walk.reports
      created := match result with
        | .created inst => inst :: walk.created
        | _ => walk.created }

def request (index : Index) (maxDepth : Nat) (user : User) (walk : Walk) (use : Use) : Walk :=
  match Subst.arityError? (index.paramsOf use.kind use.name) use.args with
  | some error => walk.report (.ofError .arityMismatch use.site { error with name := use.name }.message)
  | none => walk.admitUse maxDepth user use

def expandOne (index : Index) (maxDepth : Nat) (walk : Walk) (inst : Instantiation) : Walk :=
  match index.specialized? inst with
  | none => walk
  | some (node, subst) =>
    (node.uses index subst).foldl (request index maxDepth { caller := inst.mangled, parent := some inst }) walk

end Walk

/-! The depths of what is registered only grow at the end, and only by the depth of the user. -/

def Registry.depths (registry : Registry) : List Nat := registry.entries.map (·.depth)

/-- `after` has what `before` has, and then only entries of one depth, within the bound. -/
def Registry.Grown (maxDepth depth : Nat) (before after : Registry) : Prop :=
  ∃ added, after.depths = before.depths ++ List.replicate added depth ∧ (maxDepth < depth → added = 0)

theorem Registry.Grown.refl {maxDepth depth : Nat} (registry : Registry) : registry.Grown maxDepth depth registry :=
  ⟨0, by simp, fun _ => rfl⟩

theorem Registry.Grown.trans {maxDepth depth : Nat} {first second third : Registry}
    (early : first.Grown maxDepth depth second) (late : second.Grown maxDepth depth third) :
    first.Grown maxDepth depth third := by
  obtain ⟨some, grown, none⟩ := early
  obtain ⟨more, further, nomore⟩ := late
  refine ⟨some + more, ?_, fun deep => by rw [none deep, nomore deep]⟩
  rw [further, grown, List.append_assoc, List.replicate_append_replicate]

theorem Registry.register_grown {registry : Registry} {name : Text} {args : List TypeExpr} {site : UseSite}
    {origin : Origin} {maxDepth : Nat} (allowed : origin.depth ≤ maxDepth ∨ (registry.find? name args).isSome) :
    registry.Grown maxDepth origin.depth (registry.register name args site origin).1 := by
  have step := register_cases registry name args site origin
  generalize registry.register name args site origin = outcome at step ⊢
  cases step with
  | existing known entry => exact ⟨0, by simp [depths, map_set (·.depth) entry], fun _ => rfl⟩
  | collision missing owned => exact Grown.refl registry
  | created missing unowned =>
    refine ⟨1, by simp [depths, Registry.created], fun deep => ?_⟩
    have within := allowed.resolve_right (by simp [find?, missing])
    omega

def Instantiations.Grown (maxDepth depth : Nat) (before after : Instantiations) : Prop :=
  before.structs.Grown maxDepth depth after.structs ∧ before.funcs.Grown maxDepth depth after.funcs

theorem Instantiations.Grown.refl {maxDepth depth : Nat} (insts : Instantiations) :
    insts.Grown maxDepth depth insts := ⟨.refl _, .refl _⟩

theorem Instantiations.Grown.trans {maxDepth depth : Nat} {first second third : Instantiations}
    (early : first.Grown maxDepth depth second) (late : second.Grown maxDepth depth third) :
    first.Grown maxDepth depth third := ⟨early.1.trans late.1, early.2.trans late.2⟩

theorem Instantiations.register_grown {insts : Instantiations} {kind : InstKind} {name : Text}
    {args : List TypeExpr} {site : UseSite} {origin : Origin} {maxDepth : Nat}
    (allowed : origin.depth ≤ maxDepth ∨ ((insts.registry kind).find? name args).isSome) :
    insts.Grown maxDepth origin.depth (insts.register kind name args site origin).1 := by
  have grown : (insts.registry kind).Grown maxDepth origin.depth
      ((insts.registry kind).register name args site origin).1 := Registry.register_grown allowed
  have merged : insts.Grown maxDepth origin.depth
      (insts.setRegistry kind ((insts.registry kind).register name args site origin).1) := by
    cases kind
    · exact ⟨grown, .refl _⟩
    · exact ⟨.refl _, grown⟩
  unfold register
  dsimp only
  split
  · exact merged
  · exact merged

namespace Walk

theorem report_insts (walk : Walk) (problem : Diagnostic) : (walk.report problem).insts = walk.insts := by
  unfold report
  split <;> rfl

theorem admitUse_grown (maxDepth : Nat) (user : User) (walk : Walk) (use : Use) :
    walk.insts.Grown maxDepth user.depth (walk.admitUse maxDepth user use).insts := by
  unfold admitUse
  split
  · rw [report_insts]
    exact .refl _
  next allowed =>
    show walk.insts.Grown maxDepth user.origin.depth _
    refine Instantiations.register_grown ?_
    simp only [Bool.and_eq_true, decide_eq_true_eq, Option.isNone_iff_eq_none, not_and] at allowed
    by_cases within : user.depth ≤ maxDepth
    · exact .inl within
    · exact .inr (Option.isSome_iff_ne_none.mpr (allowed (by omega)))

theorem request_grown (index : Index) (maxDepth : Nat) (user : User) (walk : Walk) (use : Use) :
    walk.insts.Grown maxDepth user.depth (walk.request index maxDepth user use).insts := by
  unfold request
  split
  · rw [report_insts]
    exact .refl _
  · exact admitUse_grown maxDepth user walk use

theorem foldl_request_grown (index : Index) (maxDepth : Nat) (user : User) (uses : List Use) (walk : Walk) :
    walk.insts.Grown maxDepth user.depth (uses.foldl (request index maxDepth user) walk).insts := by
  induction uses generalizing walk with
  | nil => exact .refl _
  | cons use rest ih => exact (request_grown index maxDepth user walk use).trans (ih _)

theorem expandOne_grown (index : Index) (maxDepth : Nat) (walk : Walk) (inst : Instantiation) :
    walk.insts.Grown maxDepth (inst.depth + 1) (walk.expandOne index maxDepth inst).insts := by
  unfold expandOne
  split
  · exact .refl _
  · exact foldl_request_grown index maxDepth _ _ walk

def pending (walk : Walk) (structs funcs : Nat) : List Nat :=
  walk.insts.structs.depths.drop structs ++ walk.insts.funcs.depths.drop funcs

private theorem drop_grown {maxDepth depth : Nat} {before after : Registry} (grown : before.Grown maxDepth depth after)
    (count : Nat) : ∃ added, after.depths.drop count = before.depths.drop count ++ List.replicate added depth ∧
      (maxDepth < depth → added = 0) := by
  obtain ⟨added, same, none⟩ := grown
  refine ⟨added - (count - before.depths.length), ?_, fun deep => by rw [none deep, Nat.zero_sub]⟩
  rw [same, List.drop_append, List.drop_replicate]

private theorem replicate_deeper {maxDepth depth added : Nat} (within : maxDepth < depth + 1 → added = 0) :
    ∀ new ∈ List.replicate added (depth + 1), depth < new ∧ new ≤ maxDepth + 1 := by
  intro new member
  obtain ⟨positive, rfl⟩ := List.mem_replicate.mp member
  have : ¬ maxDepth < depth + 1 := fun deep => positive (within deep)
  omega

/-- Expanding one entry replaces its depth by deeper ones. -/
private theorem rank_step {maxDepth depth : Nat} {before after : Instantiations} {structs funcs structs' funcs' : Nat}
    (grown : before.Grown maxDepth (depth + 1) after)
    (taken : (before.structs.depths.drop structs ++ before.funcs.depths.drop funcs).Perm
      (depth :: (before.structs.depths.drop structs' ++ before.funcs.depths.drop funcs'))) :
    (DepthCounts.wellFounded (maxDepth + 1)).rel
      (rankOf (maxDepth + 1) (after.structs.depths.drop structs' ++ after.funcs.depths.drop funcs'))
      (rankOf (maxDepth + 1) (before.structs.depths.drop structs ++ before.funcs.depths.drop funcs)) := by
  obtain ⟨left, sameStructs, noStructs⟩ := drop_grown grown.1 structs'
  obtain ⟨right, sameFuncs, noFuncs⟩ := drop_grown grown.2 funcs'
  refine rankOf_rel (List.replicate left (depth + 1) ++ List.replicate right (depth + 1)) taken ?_ ?_
  · rw [sameStructs, sameFuncs, List.perm_iff_count]
    intro any
    simp only [List.count_append]
    omega
  · intro new member
    rcases List.mem_append.mp member with member | member
    · exact replicate_deeper noStructs new member
    · exact replicate_deeper noFuncs new member

private theorem drop_depths {registry : Registry} {place : Nat} {inst : Instantiation}
    (found : registry.entries[place]? = some inst) :
    registry.depths.drop place = inst.depth :: registry.depths.drop (place + 1) := by
  obtain ⟨inside, same⟩ := List.getElem?_eq_some_iff.mp found
  have bound : place < registry.depths.length := by simpa [Registry.depths] using inside
  rw [List.drop_eq_getElem_cons bound]
  simp [Registry.depths, same]

/-- Expands the entries from the positions `structs` and `funcs` on, structs first, until nothing is left. -/
def expandFrom (index : Index) (maxDepth : Nat) (walk : Walk) (structs funcs : Nat) : Walk :=
  match _struct : walk.insts.structs.entries[structs]? with
  | some inst => expandFrom index maxDepth (walk.expandOne index maxDepth inst) (structs + 1) funcs
  | none =>
    match _func : walk.insts.funcs.entries[funcs]? with
    | some inst => expandFrom index maxDepth (walk.expandOne index maxDepth inst) structs (funcs + 1)
    | none => walk
termination_by rankOf (maxDepth + 1) (walk.pending structs funcs)
decreasing_by
  · refine rank_step (expandOne_grown index maxDepth walk inst) ?_
    rw [drop_depths _struct, List.cons_append]
  · refine rank_step (expandOne_grown index maxDepth walk inst) ?_
    rw [drop_depths _func]
    exact List.perm_middle

end Walk

structure PassResult where
  insts : Instantiations
  reports : List Diagnostic := []
  created : List Instantiation := []
deriving Repr

def Walk.result (walk : Walk) : PassResult :=
  { insts := walk.insts, reports := walk.reports.reverse, created := walk.created.reverse }

def Walk.collect (program : Program) (maxDepth : Nat) (walk : Walk) : Walk :=
  let index := Index.ofProgram program
  (program.decls.filter (!·.isGeneric)).foldl
    (fun walk decl => (decl.toNode.uses index {}).foldl (request index maxDepth { caller := decl.name }) walk) walk

/-- Registers what the instantiations use, and what those use, until nothing is missing. -/
def Walk.expand (program : Program) (maxDepth : Nat) (walk : Walk) : Walk :=
  walk.expandFrom (Index.ofProgram program) maxDepth 0 0

def collect (program : Program) (maxDepth : Nat) (insts : Instantiations) : PassResult :=
  (Walk.collect program maxDepth { insts }).result

def expand (program : Program) (maxDepth : Nat) (insts : Instantiations) : PassResult :=
  (Walk.expand program maxDepth { insts }).result

/-- Both passes from nothing. Every problem is reported once. -/
def prepare (program : Program) (maxDepth : Nat) : PassResult :=
  (Walk.expand program maxDepth (Walk.collect program maxDepth { insts := { collisions := .once [] } })).result

end GenericC
