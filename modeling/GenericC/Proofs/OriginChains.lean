import GenericC.Proofs.DepthVerdicts
import GenericC.Proofs.ParentChains

/-! Where an instantiation comes from. It is recorded with the instantiation in whose declaration it was found, and that
one was there before it. So the records form a tree in each program, whose roots are used in the text of the program
itself, and going up from an entry takes as many steps as the entry is deep. -/

namespace GenericC

variable {inst : Instantiation}

/-- The declaration of an instantiation, with its type arguments put in, uses another one. -/
def Instantiation.Opens (index : Index) (parent inst : Instantiation) : Prop :=
  ∃ node subst, index.specialized? parent = some (node, subst) ∧
    node.Uses index subst inst.kind inst.genericName inst.typeArgs

def Program.Writes (program : Program) (inst : Instantiation) : Prop :=
  ∃ decl ∈ program.decls, decl.isGeneric = false ∧
    decl.toNode.Uses (.ofProgram program) {} inst.kind inst.genericName inst.typeArgs

/-- How an instantiation was found: in the text of the program, or by opening one that was there before. -/
inductive Derived (program : Program) (earlier : List Instantiation) (inst : Instantiation) : Prop where
  | written (writes : program.Writes inst) (root : inst.parent = none) (top : inst.depth = 0)
  | opened {parent : Instantiation} (member : parent ∈ earlier) (opens : parent.Opens (.ofProgram program) inst)
      (link : inst.parent = some parent.key) (depth : inst.depth = parent.depth + 1)

theorem Derived.mono {program : Program} {early late : List Instantiation} (derived : Derived program early inst)
    (grown : early ⊆ late) : Derived program late inst := by
  cases derived with
  | written writes root top => exact .written writes root top
  | opened member opens link depth => exact .opened (grown member) opens link depth

/-- A list of instantiations, the latest first, in which each was found with the help of earlier ones. -/
inductive Derivation (program : Program) : List Instantiation → Prop where
  | nil : Derivation program []
  | cons {inst : Instantiation} {earlier : List Instantiation} (derived : Derived program earlier inst)
      (rest : Derivation program earlier) : Derivation program (inst :: earlier)

theorem Derivation.split {program : Program} {latest : List Instantiation} (derivation : Derivation program latest)
    (member : inst ∈ latest) : ∃ later earlier, latest = later ++ inst :: earlier ∧ Derived program earlier inst := by
  induction derivation with
  | nil => cases member
  | @cons first earlier derived rest ih =>
    rcases List.mem_cons.mp member with rfl | member
    · exact ⟨[], earlier, rfl, derived⟩
    · obtain ⟨later, before, rfl, found⟩ := ih member
      exact ⟨first :: later, before, rfl, found⟩

def PassResult.CreatedBefore (result : PassResult) (first second : Instantiation) : Prop :=
  [first.key, second.key].Sublist (result.created.map (·.key))

namespace Walk

variable {core entry : Instantiation}

def latest (walk : Walk) : List Instantiation := walk.created.map (·.core)

structure Traced (program : Program) (maxDepth : Nat) (walk : Walk) : Prop where
  inStep : walk.InStep
  /-- What was created of a kind is what is registered of it, in the same order. -/
  listed : ∀ kind, (walk.latest.filter (·.kind = kind)).reverse = walk.cores kind
  derivation : Derivation program walk.latest
  distinct : (walk.latest.map (·.key)).Nodup
  within : ∀ inst ∈ walk.latest, inst.depth ≤ maxDepth

variable {program : Program} {maxDepth : Nat} {walk : Walk}

theorem Traced.mem_latest (traced : walk.Traced program maxDepth) : core ∈ walk.latest ↔ walk.Known core := by
  constructor
  · intro member
    refine ⟨core.kind, ?_⟩
    rw [← traced.listed, List.mem_reverse]
    exact List.mem_filter.mpr ⟨member, by simp⟩
  · rintro ⟨kind, member⟩
    rw [← traced.listed, List.mem_reverse] at member
    exact (List.mem_filter.mp member).1

theorem Traced.key_kind (traced : walk.Traced program maxDepth) (member : core ∈ walk.latest) :
    core.key.kind = core.kind := by
  obtain ⟨kind, known⟩ := traced.mem_latest.mp member
  obtain ⟨entry, inside, rfl⟩ := List.mem_map.mp known
  have valid := traced.inStep.valid kind
  show entry.key.kind = entry.kind
  rw [valid.key entry inside, valid.kind entry inside]
  rfl

theorem Traced.request (traced : walk.Traced program maxDepth) {user : User} {use : Use}
    (source : Derived program walk.latest (use.core user)) :
    let after := walk.request (.ofProgram program) maxDepth user use
    after.Traced program maxDepth ∧ walk.latest ⊆ after.latest := by
  intro after
  have inStep : after.InStep := request_inStep _ _ traced.inStep user use
  rcases request_effect (.ofProgram program) maxDepth traced.inStep user use with ⟨-, idle⟩ | registers
  · have same : after.latest = walk.latest := congrArg (List.map Instantiation.core) idle.created
    refine ⟨⟨inStep, ?_, same ▸ traced.derivation, same ▸ traced.distinct, same ▸ traced.within⟩,
      same ▸ List.Subset.refl _⟩
    intro kind
    rw [same, traced.listed, idle.cores]
  · obtain ⟨inst, recorded, core⟩ := registers.recorded
    have added : after.latest = use.core user :: walk.latest := by
      rw [latest, recorded, List.map_cons, core, latest]
    have fresh : use.key ∉ walk.latest.map (·.key) := by
      intro known
      obtain ⟨core, member, same⟩ := List.mem_map.mp known
      have kind : core.kind = use.kind := by
        rw [← traced.key_kind member, same]
        rfl
      apply registers.missing
      rw [← same, ← kind, ← traced.listed]
      exact List.mem_map_of_mem (List.mem_reverse.mpr (List.mem_filter.mpr ⟨member, by simp⟩))
    refine ⟨⟨inStep, ?_, added ▸ .cons source traced.derivation, ?_, ?_⟩, added ▸ List.subset_cons_self _ _⟩
    · intro kind
      rw [added]
      by_cases own : use.kind = kind
      · subst own
        rw [List.filter_cons_of_pos (by simp [Use.core]), List.reverse_cons, traced.listed]
        exact registers.added.symm
      · rw [List.filter_cons_of_neg (by simp [Use.core, own]), traced.listed]
        exact (registers.others kind (Ne.symm own)).symm
    · rw [added]
      exact List.nodup_cons.mpr ⟨fresh, traced.distinct⟩
    · rw [added]
      exact List.forall_mem_cons.mpr ⟨registers.within, traced.within⟩

theorem Traced.requests (traced : walk.Traced program maxDepth) {user : User} {uses : List Use}
    (source : ∀ use ∈ uses, Derived program walk.latest (use.core user)) :
    (uses.foldl (Walk.request (.ofProgram program) maxDepth user) walk).Traced program maxDepth := by
  induction uses generalizing walk with
  | nil => exact traced
  | cons use rest ih =>
    obtain ⟨next, grown⟩ := traced.request (source use List.mem_cons_self)
    exact ih next fun other member => (source other (List.mem_cons_of_mem _ member)).mono grown

theorem Traced.collect (traced : walk.Traced program maxDepth) : (walk.collect program maxDepth).Traced program maxDepth := by
  refine collect_keeps (fun {walk decl} member notGeneric traced => traced.requests fun use inside => ?_) traced
  exact .written ⟨decl, member, notGeneric, Node.uses_iff.mpr ⟨use, inside, rfl, rfl, rfl⟩⟩ rfl rfl

theorem Traced.expandOne (traced : walk.Traced program maxDepth) (kind : InstKind)
    (member : inst ∈ (walk.insts.registry kind).entries) :
    (walk.expandOne (.ofProgram program) maxDepth inst).Traced program maxDepth := by
  unfold Walk.expandOne
  split
  · exact traced
  next node subst found =>
    refine traced.requests fun use inside => ?_
    have known : inst.core ∈ walk.latest := traced.mem_latest.mpr ⟨kind, List.mem_map_of_mem member⟩
    exact .opened known ⟨node, subst, found, Node.uses_iff.mpr ⟨use, inside, rfl, rfl, rfl⟩⟩ rfl rfl

theorem Traced.expandFrom (traced : walk.Traced program maxDepth) (structs funcs : Nat) :
    (walk.expandFrom (.ofProgram program) maxDepth structs funcs).Traced program maxDepth :=
  expandFrom_keeps (fun kind _ member traced => traced.expandOne kind member) traced structs funcs

theorem traced_empty (program : Program) (maxDepth : Nat) :
    Traced program maxDepth { insts := { collisions := .once [] } } where
  inStep := (sound_empty program).inStep
  listed kind := by cases kind <;> rfl
  derivation := .nil
  distinct := List.nodup_nil
  within inst member := by cases member

theorem Traced.findKey? (traced : walk.Traced program maxDepth) (member : core ∈ walk.latest) :
    ∃ entry, walk.insts.findKey? core.key = some entry ∧ walk.result.Has entry ∧ entry.core = core := by
  obtain ⟨kind, known⟩ := traced.mem_latest.mp member
  obtain ⟨entry, inside, found, same⟩ := traced.inStep.findKey? known
  exact ⟨entry, found, ⟨kind, inside⟩, same⟩

theorem result_created (walk : Walk) : walk.result.created.map (·.key) = (walk.latest.map (·.key)).reverse := by
  rw [Walk.result, List.map_reverse, latest, List.map_map]
  rfl

theorem createdBefore_of_split {later earlier : List Instantiation} {parent : Instantiation}
    (split : walk.latest = later ++ entry.core :: earlier) (member : parent.core ∈ earlier) :
    walk.result.CreatedBefore parent entry := by
  unfold PassResult.CreatedBefore
  rw [result_created, ← List.reverse_sublist, List.reverse_reverse, split, List.map_append, List.map_cons]
  have inside : [parent.key].Sublist (earlier.map (·.key)) :=
    List.singleton_sublist.mpr (List.mem_map.mpr ⟨parent.core, member, rfl⟩)
  exact (inside.cons_cons entry.key).trans (List.sublist_append_right _ _)

structure ParentOf (program : Program) (walk : Walk) (parent entry : Instantiation) : Prop where
  link : entry.parent = some parent.key
  found : walk.insts.findKey? parent.key = some parent
  has : walk.result.Has parent
  before : walk.result.CreatedBefore parent entry
  depth : entry.depth = parent.depth + 1
  opens : parent.Opens (.ofProgram program) entry

theorem Traced.origin (traced : walk.Traced program maxDepth) (has : walk.result.Has entry) :
    (program.Writes entry ∧ entry.parent = none ∧ entry.depth = 0) ∨ ∃ parent, ParentOf program walk parent entry := by
  obtain ⟨kind, inside⟩ := has
  obtain ⟨later, earlier, split, derived⟩ :=
    traced.derivation.split (traced.mem_latest.mpr ⟨kind, List.mem_map_of_mem inside⟩)
  cases derived with
  | written writes root top => exact .inl ⟨writes, root, top⟩
  | @opened core member opens link depth =>
    have created : core ∈ walk.latest := by
      rw [split]
      exact List.mem_append_right _ (List.mem_cons_of_mem _ member)
    obtain ⟨parent, found, there, rfl⟩ := traced.findKey? created
    exact .inr ⟨parent, link, found, there, createdBefore_of_split split member, depth, opens⟩

/-- The way up from an entry has as many steps as the entry is deep, and ends at one that is used in the text. -/
theorem Traced.climbs (traced : walk.Traced program maxDepth) (has : walk.result.Has entry) :
    ∃ root, walk.insts.Climbs entry.depth entry root ∧ walk.result.Has root ∧ root.depth = 0 ∧ root.parent = none ∧
      program.Writes root := by
  induction level : entry.depth generalizing entry with
  | zero =>
    rcases traced.origin has with ⟨writes, root, -⟩ | ⟨parent, above⟩
    · exact ⟨entry, .top (congrArg (Option.bind · walk.insts.findKey?) root), has, level, root, writes⟩
    · exact absurd (level.symm.trans above.depth) (Nat.zero_ne_add_one _)
  | succ fewer ih =>
    rcases traced.origin has with ⟨-, -, top⟩ | ⟨parent, above⟩
    · exact absurd (level.symm.trans top) (Nat.succ_ne_zero _)
    · obtain ⟨root, climbs, known⟩ := ih above.has (Nat.succ.inj (above.depth.symm.trans level))
      exact ⟨root, .up ((congrArg (Option.bind · walk.insts.findKey?) above.link).trans above.found) climbs, known⟩

theorem Traced.mem_created (traced : walk.Traced program maxDepth) {key : InstKey} :
    key ∈ walk.result.created.map (·.key) ↔ ∃ entry, walk.result.Has entry ∧ entry.key = key := by
  rw [result_created, List.mem_reverse, List.mem_map]
  constructor
  · rintro ⟨core, member, rfl⟩
    obtain ⟨entry, -, has, rfl⟩ := traced.findKey? member
    exact ⟨entry, has, rfl⟩
  · rintro ⟨entry, ⟨kind, inside⟩, rfl⟩
    exact ⟨entry.core, traced.mem_latest.mpr ⟨kind, List.mem_map_of_mem inside⟩, rfl⟩

end Walk

/-- Every entry of the registries was found in the text of the program, and then it has no parent and lies at depth zero, or
in the declaration of an entry that was created before, and then it lies one deeper than this parent. No entry is deeper
than the bound. Whoever goes from an entry to its parent, and on, ends at an entry that is used in the text. -/
theorem entries_lead_to_text (program : Program) (maxDepth : Nat) :
    let result := prepare program maxDepth
    (result.created.map (·.key)).Nodup ∧
    (∀ key, key ∈ result.created.map (·.key) ↔ ∃ entry, result.Has entry ∧ entry.key = key) ∧
    ∀ entry, result.Has entry →
      entry.depth ≤ maxDepth ∧ (entry.parent = none ↔ entry.depth = 0) ∧
      (∀ key, entry.parent = some key → ∃ parent, result.insts.findKey? key = some parent ∧ result.Has parent ∧
        result.CreatedBefore parent entry ∧ entry.depth = parent.depth + 1 ∧
        parent.Opens (.ofProgram program) entry) ∧
      ∃ root, result.insts.root? entry = some root ∧ result.Has root ∧ root.depth = 0 ∧ root.parent = none ∧
        program.Writes root ∧ ∀ steps, entry.depth ≤ steps → result.insts.ancestor steps entry = root := by
  have traced := ((Walk.traced_empty program maxDepth).collect).expandFrom 0 0
  generalize ended : Walk.expandFrom (.ofProgram program) maxDepth _ 0 0 = walk at traced
  have result : prepare program maxDepth = walk.result := congrArg Walk.result ended
  rw [result]
  refine ⟨?_, fun key => traced.mem_created, fun entry has => ⟨?_, ?_, ?_, ?_⟩⟩
  · rw [walk.result_created, List.nodup_reverse]
    exact traced.distinct
  · obtain ⟨kind, inside⟩ := has
    exact traced.within entry.core (traced.mem_latest.mpr ⟨kind, List.mem_map_of_mem inside⟩)
  · rcases traced.origin has with ⟨-, root, top⟩ | ⟨parent, above⟩
    · exact iff_of_true root top
    · exact iff_of_false (by simp [above.link]) (by simp [above.depth])
  · intro key linked
    rcases traced.origin has with ⟨-, root, -⟩ | ⟨parent, above⟩
    · exact absurd (linked.symm.trans root) (Option.some_ne_none key)
    · cases Option.some.inj (linked.symm.trans above.link)
      exact ⟨parent, above.found, above.has, above.before, above.depth, above.opens⟩
  · obtain ⟨root, climbs, known, top, none, writes⟩ := traced.climbs has
    exact ⟨root, Instantiations.root?_eq_some_iff.mpr ⟨_, climbs⟩, known, top, none, writes, fun _ => climbs.ancestor⟩

/-- The box is only used in the crate, so the crate is its parent, and the way up ends there. -/
theorem nestedBoxes_box_below_crate :
    let program := (parseFile {} 0 nestedBoxes).program
    let result := prepare program 64
    ∃ entry, result.Has entry ∧ entry.genericName = "Box" ∧ ∃ parent, result.Has parent ∧
      parent.genericName = "Crate" ∧ result.CreatedBefore parent entry ∧ entry.depth = parent.depth + 1 ∧
      ∃ root, result.insts.root? entry = some root ∧ root.depth = 0 ∧ program.Writes root := by
  intro program result
  have run := prepare_within program 64 (fun result =>
    (result.insts.registry .struct).entries.any fun entry => entry.genericName = "Box" &&
      entry.parent.any fun key => (result.insts.findKey? key).any fun parent => parent.genericName = Text.ofString "Crate") 3
    (by decide +kernel)
  obtain ⟨entry, inside, facts⟩ := List.any_eq_true.mp run
  obtain ⟨named, linked⟩ := Bool.and_eq_true_iff.mp facts
  obtain ⟨key, link, crate⟩ := (Option.any_eq_true _ _).mp linked
  obtain ⟨found, here, owner⟩ := (Option.any_eq_true _ _).mp crate
  have has : result.Has entry := ⟨.struct, inside⟩
  obtain ⟨-, -, above, root, known, -, top, -, writes, -⟩ := (entries_lead_to_text program 64).2.2 entry has
  obtain ⟨parent, same, there, before, depth, -⟩ := above key link
  cases Option.some.inj (same.symm.trans here)
  exact ⟨entry, has, by simpa using named, found, there, by simpa using owner, before, depth, root, known, top, writes⟩

end GenericC
