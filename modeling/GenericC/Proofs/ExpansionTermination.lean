import GenericC.Proofs.ExpansionClosure
import GenericC.Proofs.ParentChains
import Mathlib.Logic.Relation

/-! The expansion of generics ends. A round of its loop takes the next entry, structs before functions, and registers what
the declaration of that entry uses. The lists grow while the loop runs, and generic code may ask for ever larger types, but
whatever a round adds is one level deeper than the entry it takes, and nothing lies below the bound. A use below the bound
is reported with the root of the entry it stands in, so a round also needs that root to be found. -/

namespace GenericC

/-- The loop of the expansion between two rounds, with the positions of the entries that come next. -/
structure Worklist where
  walk : Walk
  structs : Nat := 0
  funcs : Nat := 0

variable {index : Index} {maxDepth : Nat} {before after : Worklist} {start walk : Walk} {inst : Instantiation}

namespace Worklist

def round? (index : Index) (maxDepth : Nat) (work : Worklist) : Option Worklist :=
  match work.walk.insts.structs.entries[work.structs]? with
  | some inst => some { work with walk := work.walk.expandOne index maxDepth inst, structs := work.structs + 1 }
  | none =>
    match work.walk.insts.funcs.entries[work.funcs]? with
    | some inst => some { work with walk := work.walk.expandOne index maxDepth inst, funcs := work.funcs + 1 }
    | none => none

def Round (index : Index) (maxDepth : Nat) (before after : Worklist) : Prop := before.round? index maxDepth = some after

def Finished (work : Worklist) : Prop :=
  work.walk.insts.structs.size ≤ work.structs ∧ work.walk.insts.funcs.size ≤ work.funcs

theorem rounds_wellFounded (index : Index) (maxDepth : Nat) :
    WellFounded fun after before => Round index maxDepth before after := by
  suffices ends : ∀ walk structs funcs, Acc (fun after before => Round index maxDepth before after) ⟨walk, structs, funcs⟩ from
    ⟨fun work => ends work.walk work.structs work.funcs⟩
  intro walk structs funcs
  -- The cases of the loop are its rounds, so the induction is the one that makes the loop total.
  induction walk, structs, funcs using Walk.expandFrom.induct index maxDepth with
  | case1 walk structs funcs inst found ih =>
    apply Acc.intro
    intro after round
    simp only [Round, round?, found, Option.some.injEq] at round
    exact round ▸ ih
  | case2 walk structs funcs missing inst found ih =>
    apply Acc.intro
    intro after round
    simp only [Round, round?, missing, found, Option.some.injEq] at round
    exact round ▸ ih
  | case3 walk structs funcs missing none =>
    apply Acc.intro
    intro after round
    simp [Round, round?, missing, none] at round

theorem rounds_reach (index : Index) (maxDepth : Nat) (walk : Walk) (structs funcs : Nat) :
    ∃ last, Relation.ReflTransGen (Round index maxDepth) ⟨walk, structs, funcs⟩ last ∧ last.Finished ∧
      last.walk = walk.expandFrom index maxDepth structs funcs := by
  fun_induction Walk.expandFrom index maxDepth walk structs funcs with
  | case1 walk structs funcs inst found ih =>
    obtain ⟨last, reached, finished, same⟩ := ih
    have round : Round index maxDepth ⟨walk, structs, funcs⟩ ⟨walk.expandOne index maxDepth inst, structs + 1, funcs⟩ := by
      simp [Round, round?, found]
    exact ⟨last, .head round reached, finished, same⟩
  | case2 walk structs funcs missing inst found ih =>
    obtain ⟨last, reached, finished, same⟩ := ih
    have round : Round index maxDepth ⟨walk, structs, funcs⟩ ⟨walk.expandOne index maxDepth inst, structs, funcs + 1⟩ := by
      simp [Round, round?, missing, found]
    exact ⟨last, .head round reached, finished, same⟩
  | case3 walk structs funcs missing none =>
    exact ⟨_, .refl, ⟨List.getElem?_eq_none_iff.mp missing, List.getElem?_eq_none_iff.mp none⟩, rfl⟩

theorem Round.expands (round : Round index maxDepth before after) :
    ∃ kind, ∃ inst ∈ (before.walk.insts.registry kind).entries, after.walk = before.walk.expandOne index maxDepth inst := by
  unfold Round round? at round
  split at round
  next inst found =>
    cases round
    exact ⟨.struct, inst, List.mem_of_getElem? found, rfl⟩
  next missing =>
    split at round
    next inst found =>
      cases round
      exact ⟨.func, inst, List.mem_of_getElem? found, rfl⟩
    next none => cases round

end Worklist

namespace Walk

theorem requests_created (inStep : walk.InStep) (user : User) (uses : List Use) :
    ∀ inst ∈ (uses.foldl (request index maxDepth user) walk).created, inst ∈ walk.created ∨ inst.depth ≤ maxDepth := by
  induction uses generalizing walk with
  | nil => exact fun inst => .inl
  | cons use rest ih =>
    intro inst member
    rcases ih (request_inStep index maxDepth inStep user use) inst member with early | within
    · rcases request_effect index maxDepth inStep user use with ⟨-, idle⟩ | registers
      · exact .inl (idle.created ▸ early)
      · obtain ⟨new, recorded, core⟩ := registers.recorded
        rw [recorded] at early
        rcases List.mem_cons.mp early with rfl | old
        · have depth : inst.depth = user.depth := congrArg Instantiation.depth core
          exact .inr (depth ▸ registers.within)
        · exact .inl old
    · exact .inr within

/-- The entries from before are kept, uses apart. Those behind them, and all that is recorded as created, lie within the
bound. -/
structure Descends (maxDepth : Nat) (start walk : Walk) : Prop where
  chained : walk.Chained
  entries : ∀ kind, ∃ added, walk.cores kind = start.cores kind ++ added ∧ ∀ core ∈ added, core.depth ≤ maxDepth
  created : ∀ inst ∈ walk.created, inst.depth ≤ maxDepth

theorem Descends.refl (chained : walk.Chained) (none : walk.created = []) : Descends maxDepth walk walk where
  chained := chained
  entries _ := ⟨[], (List.append_nil _).symm, by simp⟩
  created := by simp [none]

theorem Descends.expandOne (descends : Descends maxDepth start walk) {kind : InstKind}
    (member : inst ∈ (walk.insts.registry kind).entries) : Descends maxDepth start (walk.expandOne index maxDepth inst) where
  chained := descends.chained.expandOne index maxDepth member
  entries other := by
    obtain ⟨early, before, within⟩ := descends.entries other
    obtain ⟨late, after, adds⟩ := (expandOne_adds index maxDepth descends.chained.inStep inst).2 other
    refine ⟨early ++ late, by rw [after, before, List.append_assoc], List.forall_mem_append.mpr ⟨within, fun core new => ?_⟩⟩
    exact adds.depth core new ▸ adds.within (List.ne_nil_of_mem new)
  created := by
    unfold Walk.expandOne
    split
    · exact descends.created
    · intro new later
      exact (requests_created descends.chained.inStep _ _ new later).elim (descends.created new) id

end Walk

namespace Worklist

/-- What a round takes for granted. Whatever uses in the declaration of an entry were met before, the level below that
entry is a number that the machine can count to, and the way up from the entry ends. -/
def Grounded (index : Index) (maxDepth : Nat) (work : Worklist) : Prop :=
  ∀ kind, ∀ inst ∈ (work.walk.insts.registry kind).entries,
    (inst.depth : Int) + 1 ≤ Int64.maxValue.toInt ∧
    ∀ uses : List Use,
      let user := { caller := inst.mangled, parent := some inst }
      let insts := (uses.foldl (Walk.request index maxDepth user) work.walk).insts
      ∃ steps root, insts.Climbs steps inst root ∧ insts.root? inst = some root

theorem rounds_descend (reached : Relation.ReflTransGen (Round index maxDepth) before after)
    (descends : Walk.Descends maxDepth start before.walk) : Walk.Descends maxDepth start after.walk := by
  induction reached with
  | refl => exact descends
  | tail _ round ih =>
    obtain ⟨kind, inst, member, same⟩ := round.expands
    exact same ▸ ih.expandOne member

theorem grounded_of_descends {work : Worklist} (descends : Walk.Descends maxDepth start work.walk)
    (small : (maxDepth : Int) < Int64.maxValue.toInt)
    (room : ∀ kind, ∀ core ∈ start.cores kind, (core.depth : Int) < Int64.maxValue.toInt) :
    work.Grounded index maxDepth := by
  intro kind inst member
  have known : inst.core ∈ work.walk.cores kind := List.mem_map_of_mem member
  constructor
  · obtain ⟨added, same, within⟩ := descends.entries kind
    rw [same] at known
    rcases List.mem_append.mp known with old | new
    · exact Int.add_one_le_of_lt (room kind inst.core old)
    · exact Int.add_one_le_of_lt (Int.lt_of_le_of_lt (Int.ofNat_le.mpr (within inst.core new)) small)
  · intro uses user
    have above : ∀ parent ∈ user.parent, ∃ kind, parent.core ∈ work.walk.cores kind := by
      rintro parent ⟨⟩
      exact ⟨kind, known⟩
    obtain ⟨chained, kept⟩ := descends.chained.requests index maxDepth above uses
    obtain ⟨steps, root, climbs⟩ := chained.climbs (kept kind known)
    exact ⟨steps, root, climbs, Instantiations.root?_eq_some_iff.mpr ⟨steps, climbs⟩⟩

end Worklist

theorem depthFor_lt {setting : Int64} (small : setting < Int64.maxValue) :
    (depthFor setting.toInt : Int) < Int64.maxValue.toInt := by
  unfold depthFor
  split
  · decide
  next positive =>
    rw [Int.toNat_of_nonneg (Int.le_of_lt (Int.not_le.mp positive))]
    exact Int64.lt_iff_toInt_lt.mp small

/-- The rounds of the expansion come to an end, at the state that the expansion leaves, whatever a program asks for. The
setting for the bound may be any but the largest number, below which there is no level to report. The registries may hold
anything whose parents are registered one level above, as both passes leave them, and no round meets a parent twice on its
way to a root. The entries from before are kept, and every entry that is created lies within the bound. -/
theorem expansion_ends (program : Program) (setting : Int64) (insts : Instantiations) (small : setting < Int64.maxValue)
    (chained : Walk.Chained { insts })
    (room : ∀ kind, ∀ core ∈ (insts.registry kind).cores, (core.depth : Int) < Int64.maxValue.toInt) :
    let maxDepth := depthFor setting.toInt
    let Round := Worklist.Round (.ofProgram program) maxDepth
    (WellFounded fun after before => Round before after) ∧
      (∃ last, Relation.ReflTransGen Round { walk := { insts } } last ∧ last.Finished ∧
        last.walk.result = expand program maxDepth insts) ∧
      (∀ work, Relation.ReflTransGen Round { walk := { insts } } work → work.Grounded (.ofProgram program) maxDepth) ∧
      (∀ inst ∈ (expand program maxDepth insts).created, inst.depth ≤ maxDepth) ∧
      ∀ kind, ∃ added, ((expand program maxDepth insts).insts.registry kind).cores = (insts.registry kind).cores ++ added ∧
        ∀ core ∈ added, core.depth ≤ maxDepth := by
  intro maxDepth Round
  have start : Walk.Descends maxDepth { insts } { insts } := .refl chained rfl
  obtain ⟨last, reached, finished, same⟩ := Worklist.rounds_reach (.ofProgram program) maxDepth { insts } 0 0
  have descends : Walk.Descends maxDepth { insts } last.walk := Worklist.rounds_descend reached start
  have result : last.walk.result = expand program maxDepth insts := congrArg Walk.result same
  refine ⟨Worklist.rounds_wellFounded _ maxDepth, ⟨last, reached, finished, result⟩, ?_, ?_, ?_⟩
  · intro work reached
    exact Worklist.grounded_of_descends (Worklist.rounds_descend reached start) (depthFor_lt small) room
  · rw [← result]
    intro inst member
    exact descends.created inst (List.mem_reverse.mp member)
  · rw [← result]
    exact descends.entries

theorem Walk.chained_fresh : Walk.Chained { insts := {} } where
  inStep := ⟨fun kind => by cases kind <;> exact Registry.valid_fresh _, fun kind => by cases kind <;> rfl⟩
  linked kind core member := by cases kind <;> cases member

/-- The crate is in the text, so it is registered without a parent, and the box comes one level below it. -/
theorem nestedBoxes_expansion_ends :
    let program := (parseFile {} 0 nestedBoxes).program
    let insts := (collect program 64 {}).insts
    Walk.Chained { insts } ∧ (∀ inst ∈ (expand program 64 insts).created, inst.depth ≤ 64) ∧
      ∀ work, Relation.ReflTransGen (Worklist.Round (.ofProgram program) 64) { walk := { insts } } work →
        work.Grounded (.ofProgram program) 64 := by
  intro program insts
  have collected := Walk.chained_fresh.collect program 64
  have chained : Walk.Chained { insts } := ⟨⟨collected.inStep.valid, collected.inStep.kind⟩, collected.linked⟩
  have room : ∀ kind, ∀ core ∈ (insts.registry kind).cores, (core.depth : Int) < Int64.maxValue.toInt := by
    intro kind
    cases kind <;> decide +kernel
  obtain ⟨-, -, grounded, within, -⟩ := expansion_ends program 64 insts (by decide) chained room
  exact ⟨chained, within, grounded⟩

def growing : Text := "struct A<T> \x7b A<A<T>>* a; \x7d;"

/-- An entry on the last level that is recorded as its own parent. -/
def ownParent : Instantiations :=
  (Instantiations.register {} .struct "A" [.named "int" Span.nowhere] ⟨Span.nowhere, "main"⟩
    { depth := 64, parent := some ⟨.struct, "A", "int"⟩ }).1

/-- The way up from an entry has no end, and the report of what its declaration uses asks for that end. -/
def Instantiations.AskInVain (index : Index) (maxDepth : Nat) (insts : Instantiations) : Prop :=
  ∃ inst ∈ insts.structs.entries, (∀ steps root, ¬ insts.Climbs steps inst root) ∧
    let user := { caller := inst.mangled, parent := some inst }
    ∃ found ∈ index.specialized? inst, ∃ use ∈ found.1.uses index found.2,
      Walk.request index maxDepth user { insts } use = Walk.report { insts } (Walk.depthReport insts maxDepth user use)

theorem ownParent_asks_in_vain : ownParent.AskInVain (.ofProgram (parseFile {} 0 growing).program) 64 := by
  have run : ownParent.structs.entries.any (fun inst => (ownParent.root? inst).isNone && decide (inst.depth = 64) &&
      let index := Index.ofProgram (parseFile {} 0 growing).program
      (index.specialized? inst).any fun found => (found.1.uses index found.2).any fun use =>
        (Subst.arityError? (index.paramsOf use.kind use.name) use.args).isNone &&
          ((ownParent.registry use.kind).find? use.name use.args).isNone) = true := by decide +kernel
  obtain ⟨inst, member, facts⟩ := List.any_eq_true.mp run
  simp only [Bool.and_eq_true, decide_eq_true_eq] at facts
  obtain ⟨⟨rootless, depth⟩, opened⟩ := facts
  obtain ⟨found, specialized, used⟩ := (Option.any_eq_true _ _).mp opened
  obtain ⟨use, inside, facts⟩ := List.any_eq_true.mp used
  obtain ⟨fits, missing⟩ := Bool.and_eq_true_iff.mp facts
  refine ⟨inst, member, fun steps root climbs => ?_, found, specialized, use, inside, ?_⟩
  · rw [Instantiations.root?_eq_some_iff.mpr ⟨steps, climbs⟩] at rootless
    cases rootless
  · simp [Walk.request, Option.isNone_iff_eq_none.mp fits, Walk.admitUse, missing, User.depth, depth]

/-- A setting below zero does not bound the depth of what the expansion finds, since it means the usual bound. Nor may the
registries be any: from some entries the way up goes round for ever. -/
theorem settings_and_registries_restricted :
    (∃ inst ∈ (prepare (parseFile {} 0 nestedBoxes).program (depthFor (-1))).created,
      inst.parent ≠ none ∧ (-1 : Int) < inst.depth) ∧
    ownParent.AskInVain (.ofProgram (parseFile {} 0 growing).program) 64 := by
  refine ⟨?_, ownParent_asks_in_vain⟩
  have run := prepare_within (parseFile {} 0 nestedBoxes).program (depthFor (-1)) (fun result =>
    result.created.any fun inst => inst.parent.isSome && decide ((-1 : Int) < inst.depth)) 3 (by decide +kernel)
  obtain ⟨inst, member, facts⟩ := List.any_eq_true.mp run
  simp only [Bool.and_eq_true, decide_eq_true_eq] at facts
  exact ⟨inst, member, Option.isSome_iff_ne_none.mp facts.1, facts.2⟩

end GenericC
