import GenericC.Proofs.ExpansionSteps
import Mathlib.Data.List.Perm.Subperm

/-! The way from an instantiation to its parent, on to the parent of that one, and so on. It ends, or it meets an entry
for a second time and goes round for ever. Where each parent is registered one level above, no way goes round, and the
expansion keeps it so. -/

namespace GenericC

namespace Instantiations

/-- The way up from an instantiation ends at another one after so many steps. -/
inductive Climbs (insts : Instantiations) : (steps : Nat) → (inst root : Instantiation) → Prop where
  | top {inst : Instantiation} (none : insts.parent? inst = none) : Climbs insts 0 inst inst
  | up {steps : Nat} {inst parent root : Instantiation} (link : insts.parent? inst = some parent)
      (rest : Climbs insts steps parent root) : Climbs insts (steps + 1) inst root

variable {insts : Instantiations} {steps : Nat} {inst root : Instantiation}

theorem Climbs.parent?_root (climbs : insts.Climbs steps inst root) : insts.parent? root = none := by
  induction climbs with
  | top none => exact none
  | up link rest ih => exact ih

theorem Climbs.ancestor (climbs : insts.Climbs steps inst root) {more : Nat} (enough : steps ≤ more) :
    insts.ancestor more inst = root := by
  induction climbs generalizing more with
  | top none =>
    cases more with
    | zero => rfl
    | succ more => rw [Instantiations.ancestor, none]
  | up link rest ih =>
    cases more with
    | zero => exact absurd enough (Nat.not_succ_le_zero _)
    | succ more =>
      rw [Instantiations.ancestor, link]
      exact ih (Nat.le_of_succ_le_succ enough)

theorem Climbs.steps_unique (climbs : insts.Climbs steps inst root) {others : Nat} {last : Instantiation}
    (again : insts.Climbs others inst last) : others = steps := by
  induction climbs generalizing others with
  | top none =>
    cases again with
    | top => rfl
    | up link => cases none.symm.trans link
  | up link rest ih =>
    cases again with
    | top none => cases none.symm.trans link
    | up same further =>
      cases Option.some.inj (same.symm.trans link)
      exact congrArg (· + 1) (ih further)

theorem climbs_ancestor (ends : insts.parent? (insts.ancestor steps inst) = none) :
    ∃ taken, insts.Climbs taken inst (insts.ancestor steps inst) := by
  induction steps generalizing inst with
  | zero => exact ⟨0, .top ends⟩
  | succ steps ih =>
    unfold ancestor at ends ⊢
    split at ends
    next parent link =>
      obtain ⟨taken, climbs⟩ := ih ends
      exact ⟨taken + 1, .up link climbs⟩
    next none => exact ⟨0, .top none⟩

def everyEntry (insts : Instantiations) : List Instantiation := insts.structs.entries ++ insts.funcs.entries

theorem parent?_mem {parent : Instantiation} (link : insts.parent? inst = some parent) : parent ∈ insts.everyEntry := by
  obtain ⟨key, -, found⟩ := Option.bind_eq_some_iff.mp link
  obtain ⟨place, -, entry⟩ := Option.bind_eq_some_iff.mp found
  have member := List.mem_of_getElem? entry
  unfold registry at member
  split at member
  · exact List.mem_append_left _ member
  · exact List.mem_append_right _ member

/-- The entries that are met on the way up. Each is a different number of steps away from the end, so none is met
twice. -/
theorem Climbs.way (climbs : insts.Climbs steps inst root) : ∃ way : List Instantiation, way.length = steps ∧ way.Nodup ∧
    ∀ entry ∈ way, entry ∈ insts.everyEntry ∧ ∃ fewer < steps, insts.Climbs fewer entry root := by
  induction climbs with
  | top none => exact ⟨[], rfl, List.nodup_nil, by simp⟩
  | @up steps inst parent root link rest ih =>
    obtain ⟨way, length, distinct, met⟩ := ih
    refine ⟨parent :: way, congrArg (· + 1) length, List.nodup_cons.mpr ⟨?_, distinct⟩, ?_⟩
    · intro again
      obtain ⟨-, fewer, less, shorter⟩ := met parent again
      exact absurd (rest.steps_unique shorter) (Nat.ne_of_lt less)
    · rw [List.forall_mem_cons]
      refine ⟨⟨parent?_mem link, steps, Nat.lt_succ_self _, rest⟩, fun entry member => ?_⟩
      obtain ⟨inside, fewer, less, shorter⟩ := met entry member
      exact ⟨inside, fewer, Nat.lt_succ_of_lt less, shorter⟩

theorem Climbs.steps_le_size (climbs : insts.Climbs steps inst root) : steps ≤ insts.size := by
  obtain ⟨way, length, distinct, met⟩ := climbs.way
  have within := (distinct.subperm fun entry member => (met entry member).1).length_le
  rw [length, everyEntry, List.length_append] at within
  exact within

/-- An instantiation has the root at which its way up ends, and none if the way goes round. -/
theorem root?_eq_some_iff : insts.root? inst = some root ↔ ∃ steps, insts.Climbs steps inst root := by
  unfold root?
  dsimp only
  constructor
  · intro found
    split at found
    · cases found
    next ends =>
      cases Option.some.inj found
      exact climbs_ancestor (Option.not_isSome_iff_eq_none.mp ends)
  · rintro ⟨steps, climbs⟩
    rw [climbs.ancestor climbs.steps_le_size, climbs.parent?_root]
    rfl

end Instantiations

namespace Walk

variable {walk after : Walk} {inst : Instantiation}

/-- The registries are in step, and the parent of each entry is registered and lies one level above the entry. -/
structure Chained (walk : Walk) : Prop where
  inStep : walk.InStep
  linked : ∀ kind, ∀ core ∈ walk.cores kind, core.parent = none ∨
    ∃ above, ∃ parent ∈ walk.cores above, core.parent = some parent.key ∧ core.depth = parent.depth + 1

theorem InStep.findKey? (inStep : walk.InStep) {kind : InstKind} {core : Instantiation} (known : core ∈ walk.cores kind) :
    ∃ entry ∈ (walk.insts.registry kind).entries, walk.insts.findKey? core.key = some entry ∧ entry.core = core := by
  obtain ⟨entry, inside, rfl⟩ := List.mem_map.mp known
  refine ⟨entry, inside, ?_, rfl⟩
  have valid := inStep.valid kind
  have own : entry.key.kind = kind := by
    rw [valid.key entry inside]
    exact inStep.kind kind
  show (walk.insts.registry entry.key.kind).findKey? entry.key = some entry
  rw [own]
  exact valid.findKey?_eq_some.mpr ⟨inside, rfl⟩

/-- The way up from an entry ends: each of its steps leads one level up. -/
theorem Chained.climbs (chained : walk.Chained) {kind : InstKind} (known : inst.core ∈ walk.cores kind) :
    ∃ steps root, walk.insts.Climbs steps inst root := by
  induction level : inst.depth using Nat.strongRecOn generalizing inst kind with
  | ind level ih =>
    subst level
    rcases chained.linked kind _ known with none | ⟨above, core, member, link, depth⟩
    · exact ⟨0, inst, .top (congrArg (Option.bind · walk.insts.findKey?) none)⟩
    · obtain ⟨parent, -, found, rfl⟩ := chained.inStep.findKey? member
      have less : parent.depth < inst.depth := Nat.lt_of_lt_of_eq (Nat.lt_succ_self _) depth.symm
      obtain ⟨steps, root, climbs⟩ := ih _ less member rfl
      refine ⟨steps + 1, root, .up ?_ climbs⟩
      exact (congrArg (Option.bind · walk.insts.findKey?) link).trans found

/-- What is found in the declaration of an entry is recorded with that entry, and what is found in the text with
none. -/
theorem Chained.requests (chained : walk.Chained) (index : Index) (maxDepth : Nat) {user : User}
    (known : ∀ parent ∈ user.parent, ∃ kind, parent.core ∈ walk.cores kind) (uses : List Use) :
    let after := uses.foldl (request index maxDepth user) walk
    after.Chained ∧ ∀ kind, walk.cores kind ⊆ after.cores kind := by
  intro after
  obtain ⟨inStep, grown⟩ := requests_add index maxDepth chained.inStep user uses
  have kept : ∀ kind, walk.cores kind ⊆ after.cores kind := by
    intro kind
    obtain ⟨added, same, -⟩ := grown kind
    exact same ▸ List.subset_append_left _ _
  refine ⟨⟨inStep, fun kind core member => ?_⟩, kept⟩
  obtain ⟨added, same, adds⟩ := grown kind
  rw [same] at member
  rcases List.mem_append.mp member with old | new
  · refine (chained.linked kind core old).imp_right ?_
    rintro ⟨above, parent, inside, link⟩
    exact ⟨above, parent, kept above inside, link⟩
  · have link := adds.parent core new
    have depth := adds.depth core new
    unfold User.depth at depth
    cases found : user.parent with
    | none => exact .inl (by rw [link, found]; rfl)
    | some parent =>
      rw [found] at link depth
      obtain ⟨above, inside⟩ := known parent found
      exact .inr ⟨above, parent.core, kept above inside, link, depth⟩

theorem Chained.collect (chained : walk.Chained) (program : Program) (maxDepth : Nat) :
    (walk.collect program maxDepth).Chained :=
  collect_keeps (fun _ _ chained => (chained.requests _ maxDepth (by simp) _).1) chained

theorem Chained.expandOne (chained : walk.Chained) (index : Index) (maxDepth : Nat) {kind : InstKind}
    (member : inst ∈ (walk.insts.registry kind).entries) : (walk.expandOne index maxDepth inst).Chained := by
  unfold Walk.expandOne
  split
  · exact chained
  · refine (chained.requests index maxDepth ?_ _).1
    rintro parent ⟨⟩
    exact ⟨kind, List.mem_map_of_mem member⟩

end Walk
end GenericC
