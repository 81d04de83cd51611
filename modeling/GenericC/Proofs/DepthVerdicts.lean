import GenericC.Proofs.ExpansionClosure

/-! What it means that a use is too deep. The depth of an instantiation is that of the chain by which it was found first,
and structs are expanded before functions, so a shorter chain may be found later than a longer one. The order of each of
the two lists is that of a breadth-first search. So this needs both: a chain through a struct that is too long, and a chain
through a function that is short enough. -/

namespace GenericC

variable {kind : InstKind} {inst next core : Instantiation} {walk : Walk} {report : Diagnostic}

/-- The chain that leads to an instantiation, with itself, has one of a kind. -/
inductive Through (known : Instantiation → Prop) (kind : InstKind) : Instantiation → Prop where
  | here {inst : Instantiation} (same : inst.kind = kind) : Through known kind inst
  | above {inst parent : Instantiation} (member : known parent) (link : inst.parent = some parent.key)
      (through : Through known kind parent) : Through known kind inst

theorem Through.mono {first second : Instantiation → Prop}
    (through : Through first kind inst) (grown : ∀ inst, first inst → second inst) : Through second kind inst := by
  induction through with
  | here same => exact .here same
  | above member link _ ih => exact .above (grown _ member) link ih

/-- What was expanded and what waits, structs before functions. What is expanded early is not deeper than what waits, unless
a struct leads to the one and a function to the other. -/
structure Queued (known : Instantiation → Prop) (done structs funcs : List Instantiation) : Prop where
  fair : ∀ early ∈ done, ∀ late ∈ structs ++ funcs,
    early.depth ≤ late.depth ∨ (Through known .func late ∧ Through known .struct early)
  structsSorted : structs.Pairwise (·.depth ≤ ·.depth)
  structsNear : ∀ first ∈ structs.head?, ∀ late ∈ structs, late.depth ≤ first.depth + 1
  funcsSorted : funcs.Pairwise fun early late => early.depth ≤ late.depth ∨ Through known .struct early
  found : ∀ inst ∈ structs ++ funcs, inst.depth = 0 ∨
    ∃ parent ∈ done, known parent ∧ inst.parent = some parent.key ∧ inst.depth = parent.depth + 1

structure FoundIn (parent inst : Instantiation) : Prop where
  link : inst.parent = some parent.key
  depth : inst.depth = parent.depth + 1

namespace Queued

variable {known : Instantiation → Prop} {done structs funcs : List Instantiation}

theorem mono {more : Instantiation → Prop} (queued : Queued known done structs funcs)
    (grown : ∀ inst, known inst → more inst) : Queued more done structs funcs where
  fair early before late after :=
    (queued.fair early before late after).imp_right (And.imp (·.mono grown) (·.mono grown))
  structsSorted := queued.structsSorted
  structsNear := queued.structsNear
  funcsSorted := queued.funcsSorted.imp fun order => order.imp_right (·.mono grown)
  found inst member := by
    apply (queued.found inst member).imp_right
    rintro ⟨parent, before, there, link⟩
    exact ⟨parent, before, grown parent there, link⟩

theorem congr {other : List Instantiation} (queued : Queued known done structs funcs)
    (same : ∀ inst, inst ∈ other ↔ inst ∈ done) : Queued known other structs funcs where
  fair early before := queued.fair early ((same early).mp before)
  structsSorted := queued.structsSorted
  structsNear := queued.structsNear
  funcsSorted := queued.funcsSorted
  found inst member := by
    apply (queued.found inst member).imp_right
    rintro ⟨parent, before, facts⟩
    exact ⟨parent, (same parent).mpr before, facts⟩

/-- What is found in the next entry is not less deep than what was expanded. -/
theorem fair_found (queued : Queued known done structs funcs) (waits : next ∈ structs ++ funcs)
    (there : known next) {early : Instantiation} (before : early ∈ done) {late : Instantiation} (child : FoundIn next late) :
    early.depth ≤ late.depth ∨ (Through known .func late ∧ Through known .struct early) := by
  rcases queued.fair early before next waits with order | ⟨func, struct⟩
  · left
    have depth := child.depth
    omega
  · exact .inr ⟨.above there child.link func, struct⟩

theorem func_found (queued : Queued known done structs funcs) (waits : next ∈ structs ++ funcs)
    {early : Instantiation} (before : early ∈ funcs) {late : Instantiation} (child : FoundIn next late) :
    early.depth ≤ late.depth ∨ Through known .struct early := by
  have depth := child.depth
  rcases queued.found early (List.mem_append_right _ before) with top | ⟨parent, expanded, there, link, level⟩
  · left
    omega
  · rcases queued.fair parent expanded next waits with order | ⟨-, struct⟩
    · left
      omega
    · exact .inr (.above there link struct)

theorem pairwise_found {children : List Instantiation} (all : ∀ child ∈ children, FoundIn next child)
    {related : Instantiation → Instantiation → Prop}
    (level : ∀ early late, early.depth = late.depth → related early late) : children.Pairwise related := by
  apply List.pairwise_of_forall_mem_list
  intro early here late there
  exact level early late ((all early here).depth.trans (all late there).depth.symm)

/-- The next entry is taken off its queue, and what is found in it is put behind the others. -/
theorem step {restStructs restFuncs newStructs newFuncs : List Instantiation} (queued : Queued known done structs funcs)
    (there : known next) (waits : next ∈ structs ++ funcs) (fewerStructs : restStructs.Sublist structs)
    (fewerFuncs : restFuncs.Sublist funcs)
    (ahead : ∀ late ∈ restStructs ++ restFuncs,
      next.depth ≤ late.depth ∨ (Through known .func late ∧ Through known .struct next))
    (near : ∀ late ∈ restStructs, next.depth ≤ late.depth ∧ late.depth ≤ next.depth + 1)
    (foundStructs : ∀ child ∈ newStructs, FoundIn next child) (foundFuncs : ∀ child ∈ newFuncs, FoundIn next child) :
    Queued known (next :: done) (restStructs ++ newStructs) (restFuncs ++ newFuncs) := by
  have old : restStructs ++ restFuncs ⊆ structs ++ funcs := (fewerStructs.append fewerFuncs).subset
  have cases_of {late : Instantiation} (member : late ∈ restStructs ++ newStructs ++ (restFuncs ++ newFuncs)) :
      late ∈ restStructs ++ restFuncs ∨ FoundIn next late := by
    have found := List.forall_mem_append.mpr ⟨foundStructs, foundFuncs⟩ late
    simp only [List.mem_append] at member found ⊢
    tauto
  constructor
  · intro early before late after
    rcases List.mem_cons.mp before with rfl | before
    · rcases cases_of after with old | new
      · exact ahead late old
      · exact .inl (by have := new.depth; omega)
    · rcases cases_of after with rest | new
      · exact queued.fair early before late (old rest)
      · exact queued.fair_found waits there before new
  · refine List.pairwise_append.mpr
      ⟨queued.structsSorted.sublist fewerStructs, pairwise_found foundStructs fun _ _ same => same.le, ?_⟩
    intro early rest late new
    rw [(foundStructs late new).depth]
    exact (near early rest).2
  · intro head leads late member
    have around : ∀ inst ∈ restStructs ++ newStructs, next.depth ≤ inst.depth ∧ inst.depth ≤ next.depth + 1 :=
      List.forall_mem_append.mpr ⟨near, fun inst new => by have := (foundStructs inst new).depth; omega⟩
    have above := around head (List.mem_of_mem_head? leads)
    have below := around late member
    omega
  · refine List.pairwise_append.mpr
      ⟨queued.funcsSorted.sublist fewerFuncs, pairwise_found foundFuncs fun _ _ same => .inl same.le, ?_⟩
    exact fun early rest late new => queued.func_found waits (fewerFuncs.subset rest) (foundFuncs late new)
  · intro inst member
    rcases cases_of member with rest | new
    · apply (queued.found inst (old rest)).imp_right
      rintro ⟨parent, before, facts⟩
      exact ⟨parent, List.mem_cons_of_mem _ before, facts⟩
    · exact .inr ⟨next, List.mem_cons_self, there, new.link, new.depth⟩

end Queued

namespace Walk

def depthMessage (maxDepth : Nat) (name : Text) (args : List TypeExpr) : Text :=
  Text.concat ["instantiating ", (TypeExpr.apply name args).render, " exceeds the maximum depth of ", Text.ofNat maxDepth]

structure Blames (maxDepth : Nat) (report : Diagnostic) (use : Use) : Prop where
  site : report.span = use.site
  message : report.message = depthMessage maxDepth use.name use.args

theorem depthReport_blames (insts : Instantiations) (maxDepth : Nat) (user : User) (use : Use) :
    Blames maxDepth (depthReport insts maxDepth user use) use := by
  unfold depthReport
  dsimp only
  split
  · exact ⟨rfl, rfl⟩
  · split <;> exact ⟨rfl, rfl⟩

variable {index : Index} {maxDepth : Nat}

theorem mem_report {problem : Diagnostic} (member : report ∈ (walk.report problem).reports) :
    report = problem ∨ report ∈ walk.reports := by
  unfold Walk.report at member
  split at member
  · exact .inr member
  · exact List.mem_cons.mp member

theorem mem_accept {policy : CollisionReports} {problem : Diagnostic} (member : report ∈ (policy.accept problem).2) :
    report = problem := by
  unfold CollisionReports.accept at member
  split at member
  · exact List.mem_singleton.mp member
  · split at member
    · cases member
    · exact List.mem_singleton.mp member

/-- A use that is too deep and not registered was reported. -/
structure TurnedAway (maxDepth : Nat) (walk : Walk) (depth : Nat) (report : Diagnostic) (use : Use) : Prop where
  deep : maxDepth < depth
  blames : Blames maxDepth report use
  missing : use.key ∉ (walk.cores use.kind).map (·.key)

theorem request_reports (inStep : walk.InStep) {user : User} {use : Use}
    (member : report ∈ (walk.request index maxDepth user use).reports) (code : report.code = .depthExceeded) :
    report ∈ walk.reports ∨ TurnedAway maxDepth walk user.depth report use := by
  have step := request_cases index maxDepth user walk use
  generalize walk.request index maxDepth user use = after at step member
  cases step with
  | misfit wrong other =>
    rcases mem_report member with rfl | old
    · rw [other] at code
      exact absurd code (by decide)
    · exact .inl old
  | tooDeep fits deep missing =>
    rcases mem_report member with rfl | old
    · exact .inr ⟨deep, depthReport_blames .., inStep.find?_eq_none.mp missing⟩
    · exact .inl old
  | existing fits found entry => exact .inl member
  | collision fits missing owned other =>
    rcases List.mem_append.mp member with new | old
    · rw [mem_accept new, other] at code
      exact absurd code (by decide)
    · exact .inl old
  | created fits within missing unowned => exact .inl member

theorem requests_reports (inStep : walk.InStep) {user : User} {uses : List Use}
    (member : report ∈ (uses.foldl (request index maxDepth user) walk).reports) (code : report.code = .depthExceeded) :
    report ∈ walk.reports ∨ ∃ use ∈ uses, TurnedAway maxDepth walk user.depth report use := by
  induction uses generalizing walk with
  | nil => exact .inl member
  | cons use rest ih =>
    rcases ih (request_inStep index maxDepth inStep user use) member with early | ⟨other, inside, away⟩
    · exact (request_reports inStep early code).imp_right fun away => ⟨use, List.mem_cons_self, away⟩
    · refine .inr ⟨other, List.mem_cons_of_mem _ inside, away.deep, away.blames, ?_⟩
      obtain ⟨added, grown, -⟩ := request_adds index maxDepth inStep user use other.kind
      have missing := away.missing
      rw [grown, List.map_append] at missing
      exact fun known => missing (List.mem_append_left _ known)

theorem expandOne_reports (inStep : walk.InStep)
    (member : report ∈ (walk.expandOne index maxDepth inst).reports) (code : report.code = .depthExceeded) :
    report ∈ walk.reports ∨ ∃ node subst, index.specialized? inst = some (node, subst) ∧
      ∃ use ∈ node.uses index subst, TurnedAway maxDepth walk (inst.depth + 1) report use := by
  unfold expandOne at member
  split at member
  · exact .inl member
  next node subst found =>
    apply (requests_reports inStep member code).imp_right
    exact fun away => ⟨node, subst, found, away⟩

def Known (walk : Walk) (inst : Instantiation) : Prop := ∃ kind, inst ∈ walk.cores kind

/-- A report about a use in the declaration of `parent`, which lies on the last level. If the use is registered
nevertheless, a struct leads to `parent` and a function leads to the entry. -/
structure Verdict (index : Index) (maxDepth : Nat) (known : Instantiation → Prop) (cores : InstKind → List Instantiation)
    (report : Diagnostic) (parent : Instantiation) (use : Use) : Prop where
  depth : parent.depth = maxDepth
  uses : ∃ node subst, index.specialized? parent = some (node, subst) ∧ use ∈ node.uses index subst
  blames : Blames maxDepth report use
  found : ∀ core ∈ cores use.kind, core.key = use.key → Through known .struct parent ∧
    ∃ above, known above ∧ core.parent = some above.key ∧ Through known .func above

/-- The expansion between two rounds. -/
structure Fair (index : Index) (maxDepth : Nat) (walk : Walk) (doneStructs structs doneFuncs funcs : List Instantiation) :
    Prop where
  inStep : walk.InStep
  structCores : walk.cores .struct = doneStructs ++ structs
  funcCores : walk.cores .func = doneFuncs ++ funcs
  queued : Queued walk.Known (doneStructs ++ doneFuncs) structs funcs
  within : ∀ kind, ∀ core ∈ walk.cores kind, core.depth ≤ maxDepth
  verdicts : ∀ report ∈ walk.reports, report.code = .depthExceeded →
    ∃ parent ∈ doneStructs ++ doneFuncs, ∃ use, Verdict index maxDepth walk.Known walk.cores report parent use

theorem InStep.core_kind (inStep : walk.InStep)
    (member : core ∈ walk.cores kind) : core.kind = kind := by
  obtain ⟨inst, inside, rfl⟩ := List.mem_map.mp member
  exact ((inStep.valid kind).kind inst inside).trans (inStep.kind kind)

theorem Adds.foundIn {added : List Instantiation}
    (adds : Adds maxDepth { caller := inst.mangled, parent := some inst } kind added) :
    ∀ child ∈ added, FoundIn inst.core child :=
  fun child member => ⟨adds.parent child member, adds.depth child member⟩

section Round

variable {walk : Walk} {doneStructs structs doneFuncs funcs : List Instantiation} {inst : Instantiation}

theorem Fair.known_expandOne (fair : Fair index maxDepth walk doneStructs structs doneFuncs funcs) (inst : Instantiation) :
    ∀ other, walk.Known other → (walk.expandOne index maxDepth inst).Known other := by
  rintro other ⟨kind, member⟩
  obtain ⟨added, same, -⟩ := (expandOne_adds index maxDepth fair.inStep inst).2 kind
  exact ⟨kind, same ▸ List.mem_append_left _ member⟩

theorem Fair.known (fair : Fair index maxDepth walk doneStructs structs doneFuncs funcs)
    (waits : core ∈ structs ++ funcs) : walk.Known core := by
  rcases List.mem_append.mp waits with struct | func
  · exact ⟨.struct, fair.structCores ▸ List.mem_append_right _ struct⟩
  · exact ⟨.func, fair.funcCores ▸ List.mem_append_right _ func⟩

theorem Fair.func_kind (fair : Fair index maxDepth walk doneStructs structs doneFuncs funcs) :
    ∀ func ∈ funcs, func.kind = .func := by
  intro func waits
  apply fair.inStep.core_kind
  rw [fair.funcCores]
  exact List.mem_append_right _ waits

/-- A report of an earlier round is about a chain that is longer than the one of an entry that is added now; a report of
this round comes from the last level, where nothing is added. -/
theorem Fair.verdicts_round (fair : Fair index maxDepth walk doneStructs structs doneFuncs funcs)
    (waits : inst.core ∈ structs ++ funcs) :
    let after := walk.expandOne index maxDepth inst
    ∀ report ∈ after.reports, report.code = .depthExceeded → ∃ parent ∈ inst.core :: (doneStructs ++ doneFuncs), ∃ use,
      Verdict index maxDepth after.Known after.cores report parent use := by
  intro after report member code
  obtain ⟨-, adds⟩ := expandOne_adds index maxDepth fair.inStep inst
  have known := fair.known waits
  have more := fair.known_expandOne inst
  rcases expandOne_reports fair.inStep member code with old | ⟨node, subst, found, use, inside, away⟩
  · obtain ⟨parent, done, use, depth, uses, blames, verdict⟩ := fair.verdicts report old code
    refine ⟨parent, List.mem_cons_of_mem _ done, use, depth, uses, blames, ?_⟩
    intro core here key
    obtain ⟨added, same, fine⟩ := adds use.kind
    rw [same] at here
    rcases List.mem_append.mp here with early | new
    · obtain ⟨struct, above, there, link, func⟩ := verdict core early key
      exact ⟨struct.mono more, above, more above there, link, func.mono more⟩
    · have shallow : inst.depth + 1 ≤ maxDepth := fine.within (List.ne_nil_of_mem new)
      rcases fair.queued.fair parent done inst.core waits with order | ⟨func, struct⟩
      · rw [depth] at order
        exact absurd (Nat.le_trans shallow order) (Nat.not_succ_le_self _)
      · exact ⟨struct.mono more, inst.core, more _ known, fine.parent core new, func.mono more⟩
  · have level : inst.depth = maxDepth := by
      obtain ⟨kind, there⟩ := known
      have bound : inst.depth ≤ maxDepth := fair.within kind inst.core there
      exact Nat.le_antisymm bound (Nat.le_of_lt_succ away.deep)
    refine ⟨inst.core, List.mem_cons_self, use, level, ⟨node, subst, found, inside⟩, away.blames, ?_⟩
    intro core here key
    obtain ⟨added, same, fine⟩ := adds use.kind
    have none : added = [] := by
      by_contra some
      exact absurd (fine.within some) (Nat.not_le_of_lt away.deep)
    rw [same, none, List.append_nil] at here
    exact absurd (key ▸ List.mem_map_of_mem here) away.missing

theorem Fair.round (fair : Fair index maxDepth walk doneStructs structs doneFuncs funcs) (waits : inst.core ∈ structs ++ funcs)
    {doneStructs' restStructs doneFuncs' restFuncs : List Instantiation} (fewerStructs : restStructs.Sublist structs)
    (fewerFuncs : restFuncs.Sublist funcs) (structCores : doneStructs ++ structs = doneStructs' ++ restStructs)
    (funcCores : doneFuncs ++ funcs = doneFuncs' ++ restFuncs)
    (order : ∀ early, early ∈ doneStructs' ++ doneFuncs' ↔ early ∈ inst.core :: (doneStructs ++ doneFuncs))
    (ahead : ∀ late ∈ restStructs ++ restFuncs, inst.core.depth ≤ late.depth ∨
      (Through walk.Known .func late ∧ Through walk.Known .struct inst.core))
    (near : ∀ late ∈ restStructs, inst.core.depth ≤ late.depth ∧ late.depth ≤ inst.core.depth + 1) :
    ∃ newStructs newFuncs, Fair index maxDepth (walk.expandOne index maxDepth inst) doneStructs' (restStructs ++ newStructs)
      doneFuncs' (restFuncs ++ newFuncs) := by
  obtain ⟨inStep, adds⟩ := expandOne_adds index maxDepth fair.inStep inst
  obtain ⟨newStructs, grownStructs, fineStructs⟩ := adds .struct
  obtain ⟨newFuncs, grownFuncs, fineFuncs⟩ := adds .func
  rw [fair.structCores, structCores, List.append_assoc] at grownStructs
  rw [fair.funcCores, funcCores, List.append_assoc] at grownFuncs
  have queued := fair.queued.step (fair.known waits) waits fewerStructs fewerFuncs ahead near fineStructs.foundIn
    fineFuncs.foundIn
  refine ⟨newStructs, newFuncs, inStep, grownStructs, grownFuncs, (queued.mono (fair.known_expandOne inst)).congr order, ?_, ?_⟩
  · intro kind core member
    obtain ⟨added, same, fine⟩ := adds kind
    rw [same] at member
    rcases List.mem_append.mp member with old | new
    · exact fair.within kind core old
    · rw [fine.depth core new]
      exact fine.within (List.ne_nil_of_mem new)
  · intro report reported code
    obtain ⟨parent, done, verdict⟩ := fair.verdicts_round waits report reported code
    exact ⟨parent, (order parent).mpr done, verdict⟩

theorem Fair.struct (fair : Fair index maxDepth walk doneStructs (inst.core :: structs) doneFuncs funcs) :
    ∃ newStructs newFuncs, Fair index maxDepth (walk.expandOne index maxDepth inst) (doneStructs ++ [inst.core])
      (structs ++ newStructs) doneFuncs (funcs ++ newFuncs) := by
  have kind : inst.core.kind = .struct := by
    apply fair.inStep.core_kind
    rw [fair.structCores]
    exact List.mem_append_right _ List.mem_cons_self
  have first := (List.pairwise_cons.mp fair.queued.structsSorted).1
  refine fair.round List.mem_cons_self (List.sublist_cons_self _ _) (.refl _) (by simp) rfl (by simp; tauto) ?_ ?_
  · exact List.forall_mem_append.mpr ⟨fun late rest => .inl (first late rest),
      fun late rest => .inr ⟨.here (fair.func_kind late rest), .here kind⟩⟩
  · exact fun late rest => ⟨first late rest, fair.queued.structsNear _ rfl late (List.mem_cons_of_mem _ rest)⟩

theorem Fair.func (fair : Fair index maxDepth walk doneStructs [] doneFuncs (inst.core :: funcs)) :
    ∃ newStructs newFuncs, Fair index maxDepth (walk.expandOne index maxDepth inst) doneStructs newStructs
      (doneFuncs ++ [inst.core]) (funcs ++ newFuncs) := by
  have first := (List.pairwise_cons.mp fair.queued.funcsSorted).1
  refine fair.round List.mem_cons_self (.refl _) (List.sublist_cons_self _ _) rfl (by simp) (by simp; tauto) ?_ (by simp)
  exact fun late rest => (first late rest).imp_right fun struct =>
    ⟨.here (fair.func_kind late (List.mem_cons_of_mem _ rest)), struct⟩

end Round

theorem cores_next {done waiting : List Instantiation}
    (split : walk.cores kind = done ++ waiting) (found : (walk.insts.registry kind).entries[done.length]? = some inst) :
    ∃ rest, waiting = inst.core :: rest := by
  have entry : (walk.cores kind)[done.length]? = some inst.core := by
    rw [cores, Registry.cores, List.getElem?_map, found]
    rfl
  rw [split, List.getElem?_append_right (Nat.le_refl _), Nat.sub_self] at entry
  cases waiting with
  | nil => cases entry
  | cons first rest =>
    cases entry
    exact ⟨rest, rfl⟩

theorem cores_end {done waiting : List Instantiation}
    (split : walk.cores kind = done ++ waiting) (none : (walk.insts.registry kind).entries[done.length]? = none) :
    waiting = [] := by
  have length : (walk.cores kind).length ≤ done.length := by
    rw [cores, Registry.cores, List.length_map]
    exact List.getElem?_eq_none_iff.mp none
  rw [split, List.length_append] at length
  exact List.eq_nil_of_length_eq_zero (by omega)

theorem Fair.expandFrom {walk : Walk} {structs funcs : Nat} {doneStructs waitStructs doneFuncs waitFuncs : List Instantiation}
    (fair : Fair index maxDepth walk doneStructs waitStructs doneFuncs waitFuncs) (structsDone : doneStructs.length = structs)
    (funcsDone : doneFuncs.length = funcs) :
    ∃ allStructs allFuncs, Fair index maxDepth (walk.expandFrom index maxDepth structs funcs) allStructs [] allFuncs [] := by
  fun_induction Walk.expandFrom index maxDepth walk structs funcs generalizing doneStructs waitStructs doneFuncs waitFuncs with
  | case1 walk structs funcs inst found ih =>
    subst structsDone
    obtain ⟨rest, rfl⟩ := cores_next fair.structCores found
    obtain ⟨newStructs, newFuncs, next⟩ := fair.struct
    exact ih next (by simp) funcsDone
  | case2 walk structs funcs missing inst found ih =>
    subst structsDone funcsDone
    obtain rfl := cores_end fair.structCores missing
    obtain ⟨rest, rfl⟩ := cores_next fair.funcCores found
    obtain ⟨newStructs, newFuncs, next⟩ := fair.func
    exact ih next rfl (by simp)
  | case3 walk structs funcs noStruct noFunc =>
    subst structsDone funcsDone
    obtain rfl := cores_end fair.structCores noStruct
    obtain rfl := cores_end fair.funcCores noFunc
    exact ⟨doneStructs, doneFuncs, fair⟩

/-- What is found in the text of the program lies on the first level, and that is within every bound. -/
structure AtTop (walk : Walk) : Prop where
  inStep : walk.InStep
  depth : ∀ kind, ∀ core ∈ walk.cores kind, core.depth = 0
  quiet : ∀ report ∈ walk.reports, report.code ≠ .depthExceeded

theorem AtTop.requests (top : walk.AtTop) (caller : Text) (uses : List Use) :
    (uses.foldl (request index maxDepth { caller }) walk).AtTop := by
  obtain ⟨inStep, adds⟩ := requests_add index maxDepth top.inStep { caller } uses
  refine ⟨inStep, ?_, ?_⟩
  · intro kind core member
    obtain ⟨added, same, fine⟩ := adds kind
    rw [same] at member
    exact (List.mem_append.mp member).elim (top.depth kind core) (fine.depth core)
  · intro report member code
    rcases requests_reports top.inStep member code with old | ⟨use, -, away⟩
    · exact top.quiet report old code
    · exact absurd away.deep (Nat.not_lt_zero _)

theorem AtTop.collect {walk : Walk} (top : walk.AtTop) (program : Program) (maxDepth : Nat) :
    (walk.collect program maxDepth).AtTop :=
  collect_keeps (fun _ _ top => top.requests _ _) top

theorem AtTop.fair (top : walk.AtTop) :
    Fair index maxDepth walk [] (walk.cores .struct) [] (walk.cores .func) := by
  have level : ∀ core ∈ walk.cores .struct ++ walk.cores .func, core.depth = 0 :=
    List.forall_mem_append.mpr ⟨top.depth .struct, top.depth .func⟩
  refine ⟨top.inStep, rfl, rfl, ?_, ?_, fun report member code => absurd code (top.quiet report member)⟩
  · refine ⟨by simp, ?_, ?_, ?_, fun inst member => .inl (level inst member)⟩
    · apply List.pairwise_of_forall_mem_list
      intro early here late there
      rw [top.depth .struct early here]
      exact Nat.zero_le _
    · intro first leads late member
      rw [top.depth .struct late member]
      exact Nat.zero_le _
    · apply List.pairwise_of_forall_mem_list
      intro early here late there
      rw [top.depth .func early here]
      exact .inl (Nat.zero_le _)
  · intro kind core member
    rw [top.depth kind core member]
    exact Nat.zero_le _

theorem atTop_empty : AtTop { insts := { collisions := .once [] } } where
  inStep := (sound_empty {}).inStep
  depth kind core member := by cases kind <;> cases member
  quiet := by simp

end Walk

def PassResult.Has (result : PassResult) (inst : Instantiation) : Prop := ∃ kind, inst ∈ (result.insts.registry kind).entries

theorem Walk.Known.entry (known : walk.Known core) :
    ∃ inst, walk.result.Has inst ∧ inst.core = core := by
  obtain ⟨kind, member⟩ := known
  obtain ⟨inst, inside, same⟩ := List.mem_map.mp member
  exact ⟨inst, ⟨kind, inside⟩, same⟩

theorem Through.entries (through : Through walk.Known kind core) :
    ∀ inst : Instantiation, inst.core = core → Through walk.result.Has kind inst := by
  induction through with
  | here same =>
    rintro inst rfl
    exact .here same
  | above member link _ ih =>
    rintro inst rfl
    obtain ⟨parent, known, rfl⟩ := member.entry
    exact .above known link (ih parent rfl)

theorem Through.entry_of_kind {known : Instantiation → Prop}
    (through : Through known kind inst) (member : known inst) : ∃ other, known other ∧ other.kind = kind := by
  induction through with
  | here same => exact ⟨_, member, same⟩
  | above there _ _ ih => exact ih there

theorem Walk.Fair.done_known {index : Index} {maxDepth : Nat} {structs funcs : List Instantiation}
    (fair : Walk.Fair index maxDepth walk structs [] funcs []) (done : core ∈ structs ++ funcs) :
    walk.Known core := by
  rcases List.mem_append.mp done with struct | func
  · exact ⟨.struct, fair.structCores ▸ List.mem_append_left _ struct⟩
  · exact ⟨.func, fair.funcCores ▸ List.mem_append_left _ func⟩

/-- A report that a use is too deep is about a use in the declaration of an entry on the last level. What is used there may
be registered nevertheless, on a level within the bound. Then a struct is on the chain that leads to the use, and a function
is on the chain that leads to the entry. So what is too deep is not registered in a program that has instantiations of one
kind only. -/
theorem too_deep_and_registered (program : Program) (maxDepth : Nat) (report : Diagnostic)
    (reported : report ∈ (prepare program maxDepth).reports) (code : report.code = .depthExceeded) :
    let result := prepare program maxDepth
    ∃ parent use, result.Has parent ∧ parent.depth = maxDepth ∧
      (∃ node subst, (Index.ofProgram program).specialized? parent = some (node, subst) ∧
        use ∈ node.uses (.ofProgram program) subst) ∧
      report.span = use.site ∧ report.message = Walk.depthMessage maxDepth use.name use.args ∧
      (∀ entry, (result.insts.registry use.kind).find? use.name use.args = some entry →
        entry.depth ≤ maxDepth ∧ Through result.Has .struct parent ∧
        ∃ above, result.Has above ∧ entry.parent = some above.key ∧ Through result.Has .func above) ∧
      ((∃ kind, (result.insts.registry kind).entries = []) →
        (result.insts.registry use.kind).find? use.name use.args = none) := by
  obtain ⟨structs, funcs, fair⟩ := (Walk.atTop_empty.collect program maxDepth).fair.expandFrom rfl rfl
  generalize ended : Walk.expandFrom (.ofProgram program) maxDepth _ 0 0 = walk at fair
  have result : prepare program maxDepth = walk.result := congrArg Walk.result ended
  rw [result] at reported ⊢
  dsimp only
  obtain ⟨core, done, use, verdict⟩ := fair.verdicts report (List.mem_reverse.mp reported) code
  obtain ⟨parent, known, rfl⟩ := (fair.done_known done).entry
  have valid := fair.inStep.valid
  have found : ∀ entry, (walk.insts.registry use.kind).find? use.name use.args = some entry →
      entry.depth ≤ maxDepth ∧ Through walk.result.Has .struct parent ∧
      ∃ above, walk.result.Has above ∧ entry.parent = some above.key ∧ Through walk.result.Has .func above := by
    intro entry here
    obtain ⟨member, key⟩ := (valid use.kind).findKey?_eq_some.mp here
    rw [Registry.keyOf, fair.inStep.kind] at key
    have inside : entry.core ∈ walk.cores use.kind := List.mem_map_of_mem member
    obtain ⟨struct, above, there, link, func⟩ := verdict.found entry.core inside key
    obtain ⟨above, has, rfl⟩ := there.entry
    exact ⟨fair.within use.kind entry.core inside, struct.entries parent rfl, above, has, link, func.entries above rfl⟩
  refine ⟨parent, use, known, verdict.depth, verdict.uses, verdict.blames.site, verdict.blames.message, found, ?_⟩
  rintro ⟨kind, empty⟩
  cases here : (walk.insts.registry use.kind).find? use.name use.args with
  | none => exact here
  | some entry =>
    obtain ⟨-, struct, above, there, -, func⟩ := found entry here
    have both : ∃ other, walk.result.Has other ∧ other.kind = kind := by
      cases kind with
      | struct => exact struct.entry_of_kind known
      | func => exact func.entry_of_kind there
    obtain ⟨other, ⟨place, inside⟩, same⟩ := both
    rw [(valid place).kind other inside, fair.inStep.kind] at same
    subst same
    rw [empty] at inside
    cases inside

def longAndShort : Text :=
  "struct A<T> \x7b T x; \x7d; struct B<T> \x7b A<T> a; \x7d; struct C<T> \x7b B<T> b; \x7d; void f<T>() \x7b A<T> a; \x7d C<int> c; void g() \x7b f<int>(); \x7d"

/-- The chain of structs is too long for `A<int>`, and the chain through the function is not. -/
theorem longAndShort_registers_reported :
    let result := prepare (parseFile {} 0 longAndShort).program 1
    (∃ report ∈ result.reports, report.code = .depthExceeded ∧
      report.message = Walk.depthMessage 1 "A" [.named "int" Span.nowhere]) ∧
    ∃ entry ∈ (result.insts.registry .struct).entries, entry.genericName = "A" ∧
      TypeExpr.sameLists entry.typeArgs [.named "int" Span.nowhere] := by
  intro result
  have run := prepare_within (parseFile {} 0 longAndShort).program 1 (fun result =>
    result.reports.any (fun report => report.code = .depthExceeded &&
      report.message = Walk.depthMessage 1 "A" [.named "int" Span.nowhere]) &&
    (result.insts.registry .struct).entries.any fun entry => entry.genericName = "A" &&
      TypeExpr.sameLists entry.typeArgs [.named "int" Span.nowhere]) 5 (by decide +kernel)
  simpa using run

theorem longAndShort_blames_last_level :
    let result := prepare (parseFile {} 0 longAndShort).program 1
    ∃ report ∈ result.reports, report.code = .depthExceeded ∧ ∃ parent, result.Has parent ∧ parent.depth = 1 := by
  intro result
  have run := prepare_within (parseFile {} 0 longAndShort).program 1
    (fun result => result.reports.any fun report => report.code = .depthExceeded) 5 (by decide +kernel)
  obtain ⟨report, reported, code⟩ : ∃ report ∈ result.reports, report.code = .depthExceeded := by simpa using run
  obtain ⟨parent, use, known, level, -⟩ := too_deep_and_registered _ 1 report reported code
  exact ⟨report, reported, code, parent, known, level⟩

end GenericC
