import GenericC.Emit.StructOrder
import GenericC.Proofs.RegistryInvariant
import Mathlib.Data.List.Perm.Subperm

/-! Every struct instantiation with a declaration is placed in the order of definitions. The search along the fields is
described here without a bound on its steps. There are as many steps as entries, and each nested step has seen one more
entry, so the steps do not run out before everything is seen. -/

namespace GenericC

theorem Registry.Valid.unique {registry : Registry} (valid : registry.Valid) {first second : Instantiation}
    (here : first ∈ registry.entries) (there : second ∈ registry.entries) (same : first.key = second.key) :
    first = second := by
  have found := (valid.findKey?_eq_some).mpr ⟨here, same⟩
  rw [(valid.findKey?_eq_some).mpr ⟨there, rfl⟩] at found
  exact (Option.some.inj found).symm

namespace StructOrder

variable {index : Index} {structs : Registry}
variable {order after : StructOrder} {inst : Instantiation} {insts : List Instantiation}

/-- What was seen is registered, and what is placed is declared. -/
structure Sound (index : Index) (structs : Registry) (order : StructOrder) : Prop where
  distinct : order.seen.Nodup
  known : order.seen ⊆ structs.keys
  placed : ∀ inst ∈ order.placed, inst ∈ structs.entries ∧ (index.struct? inst.genericName).isSome

theorem members_known (valid : structs.Valid) (inst : Instantiation) : members index structs inst ⊆ structs.entries := by
  intro member inside
  unfold members at inside
  split at inside
  · cases inside
  · split at inside
    · obtain ⟨field, -, found⟩ := List.mem_filterMap.mp inside
      unfold embedded? at found
      split at found
      · exact ((valid.findKey?_eq_some).mp found).1
      · cases found
    · cases inside

theorem Sound.all_seen (sound : Sound index structs order) (enough : structs.size ≤ order.seen.length)
    (member : inst ∈ structs.entries) : inst.key ∈ order.seen := by
  have all : structs.keys.length ≤ order.seen.length := by simpa [Registry.keys, Registry.size] using enough
  have same := (sound.distinct.subperm sound.known).perm_of_length_le all
  exact same.mem_iff.mpr (List.mem_map_of_mem member)

theorem Sound.see (sound : Sound index structs order) (member : inst ∈ structs.entries) (fresh : inst.key ∉ order.seen) :
    Sound index structs { order with seen := inst.key :: order.seen } :=
  ⟨List.nodup_cons.mpr ⟨fresh, sound.distinct⟩,
    List.cons_subset.mpr ⟨List.mem_map_of_mem member, sound.known⟩, sound.placed⟩

/-- One instantiation after the other is visited, and what it embeds is visited before it is placed. -/
inductive Visits (index : Index) (structs : Registry) : List Instantiation → StructOrder → StructOrder → Prop where
  | done {order : StructOrder} : Visits index structs [] order order
  | again {inst : Instantiation} {rest : List Instantiation} {order after : StructOrder} (seen : inst.key ∈ order.seen)
      (later : Visits index structs rest order after) : Visits index structs (inst :: rest) order after
  | dangling {inst : Instantiation} {rest : List Instantiation} {order after : StructOrder} (fresh : inst.key ∉ order.seen)
      (missing : index.struct? inst.genericName = none)
      (later : Visits index structs rest
        { order with seen := inst.key :: order.seen, dangling := inst :: order.dangling } after) :
      Visits index structs (inst :: rest) order after
  | placed {inst : Instantiation} {rest : List Instantiation} {order middle after : StructOrder}
      (fresh : inst.key ∉ order.seen) (declared : (index.struct? inst.genericName).isSome)
      (below : Visits index structs (members index structs inst) { order with seen := inst.key :: order.seen } middle)
      (later : Visits index structs rest { middle with placed := inst :: middle.placed } after) :
      Visits index structs (inst :: rest) order after

theorem Visits.append {first second : List Instantiation} {middle : StructOrder}
    (early : Visits index structs first order middle) (late : Visits index structs second middle after) :
    Visits index structs (first ++ second) order after := by
  induction early with
  | done => exact late
  | again seen _ ih => exact .again seen (ih late)
  | dangling fresh missing _ ih => exact .dangling fresh missing (ih late)
  | placed fresh declared below _ _ ih => exact .placed fresh declared below (ih late)

theorem Visits.seen (visits : Visits index structs insts order after) :
    order.seen ⊆ after.seen ∧ ∀ inst ∈ insts, inst.key ∈ after.seen := by
  induction visits with
  | done => simp
  | again seen _ ih => exact ⟨ih.1, List.forall_mem_cons.mpr ⟨ih.1 seen, ih.2⟩⟩
  | dangling fresh missing _ ih =>
    have both := List.cons_subset.mp ih.1
    exact ⟨both.2, List.forall_mem_cons.mpr ⟨both.1, ih.2⟩⟩
  | placed fresh declared _ _ ihBelow ih =>
    have both := List.cons_subset.mp ihBelow.1
    exact ⟨List.Subset.trans both.2 ih.1, List.forall_mem_cons.mpr ⟨ih.1 both.1, ih.2⟩⟩

theorem Visits.sound (valid : structs.Valid) (visits : Visits index structs insts order after)
    (known : insts ⊆ structs.entries) (sound : Sound index structs order) :
    Sound index structs after ∧ order.seen.length ≤ after.seen.length := by
  induction visits with
  | done => exact ⟨sound, Nat.le_refl _⟩
  | again _ _ ih => exact ih (List.cons_subset.mp known).2 sound
  | dangling fresh missing _ ih =>
    obtain ⟨member, known⟩ := List.cons_subset.mp known
    have begun := sound.see member fresh
    obtain ⟨sound, count⟩ := ih known ⟨begun.distinct, begun.known, begun.placed⟩
    exact ⟨sound, Nat.le_of_succ_le count⟩
  | placed fresh declared _ _ ihBelow ih =>
    obtain ⟨member, known⟩ := List.cons_subset.mp known
    obtain ⟨counted, below⟩ := ihBelow (members_known valid _) (sound.see member fresh)
    obtain ⟨sound, count⟩ := ih known
      ⟨counted.distinct, counted.known, List.forall_mem_cons.mpr ⟨⟨member, declared⟩, counted.placed⟩⟩
    exact ⟨sound, Nat.le_trans (Nat.le_of_succ_le below) count⟩

theorem Visits.settled (valid : structs.Valid) (visits : Visits index structs insts order after)
    (known : insts ⊆ structs.entries) :
    order.placed ⊆ after.placed ∧ ∀ inst ∈ structs.entries, inst.key ∈ after.seen → inst.key ∉ order.seen →
      (index.struct? inst.genericName).isSome → inst ∈ after.placed := by
  induction visits with
  | done => exact ⟨List.Subset.refl _, fun _ _ seen unseen => absurd seen unseen⟩
  | again _ _ ih => exact ih (List.cons_subset.mp known).2
  | dangling fresh missing _ ih =>
    obtain ⟨member, known⟩ := List.cons_subset.mp known
    obtain ⟨kept, settled⟩ := ih known
    refine ⟨kept, fun other there seen unseen declared => ?_⟩
    refine settled other there seen (List.not_mem_cons_of_ne_of_not_mem (fun same => ?_) unseen) declared
    rw [valid.unique there member same, missing] at declared
    cases declared
  | @placed inst rest order middle after fresh _ _ _ ihBelow ih =>
    obtain ⟨member, known⟩ := List.cons_subset.mp known
    obtain ⟨keptBelow, settledBelow⟩ := ihBelow (members_known valid inst)
    obtain ⟨kept, settled⟩ := ih known
    obtain ⟨here, kept⟩ := List.cons_subset.mp kept
    refine ⟨List.Subset.trans keptBelow kept, fun other there seen unseen declared => ?_⟩
    by_cases same : other.key = inst.key
    · rw [valid.unique there member same]
      exact here
    · by_cases between : other.key ∈ middle.seen
      · exact kept (settledBelow other there between (List.not_mem_cons_of_ne_of_not_mem same unseen) declared)
      · exact settled other there seen between declared

theorem foldl_visits (valid : structs.Valid) {steps : Nat}
    (each : ∀ {order inst}, Sound index structs order → inst ∈ structs.entries →
      structs.size ≤ steps + order.seen.length → Visits index structs [inst] order (place index structs steps order inst))
    {insts : List Instantiation} {order : StructOrder} (sound : Sound index structs order)
    (members : insts ⊆ structs.entries) (enough : structs.size ≤ steps + order.seen.length) :
    Visits index structs insts order (insts.foldl (place index structs steps) order) := by
  induction insts generalizing order with
  | nil => exact .done
  | cons inst rest ih =>
    obtain ⟨member, members⟩ := List.cons_subset.mp members
    have first := each sound member enough
    obtain ⟨sound, count⟩ := first.sound valid (List.cons_subset.mpr ⟨member, List.nil_subset _⟩) sound
    exact first.append (ih sound members (by omega))

/-- The bound on the steps is never felt: when it is reached, everything was seen. -/
theorem place_visits (valid : structs.Valid) (steps : Nat) (sound : Sound index structs order)
    (member : inst ∈ structs.entries) (enough : structs.size ≤ steps + order.seen.length) :
    Visits index structs [inst] order (place index structs steps order inst) := by
  induction steps generalizing order inst with
  | zero =>
    rw [Nat.zero_add] at enough
    exact .again (sound.all_seen enough member) .done
  | succ steps ih =>
    unfold place
    split
    next old => exact .again (by simpa using old) .done
    next fresh =>
      have fresh : inst.key ∉ order.seen := by simpa using fresh
      dsimp only
      split
      next missing => exact .dangling fresh (Option.isNone_iff_eq_none.mp missing) .done
      next found =>
        have declared : (index.struct? inst.genericName).isSome := by simpa [Option.isSome_iff_ne_none] using found
        refine .placed fresh declared (foldl_visits valid ih (sound.see member fresh) (members_known valid inst) ?_) .done
        simp only [List.length_cons]
        omega

theorem sound_empty : Sound index structs {} := ⟨List.nodup_nil, List.nil_subset _, by simp⟩

theorem latestFirst_subset (structs : Registry) : structs.latestFirst ⊆ structs.entries :=
  fun _ member => List.mem_reverse.mp member

theorem ofRegistry_visits (valid : structs.Valid) :
    Visits index structs structs.latestFirst {} (ofRegistry index structs) :=
  foldl_visits valid (place_visits valid structs.size) sound_empty (latestFirst_subset structs) (Nat.le_add_right _ _)

theorem mem_placed_ofRegistry (valid : structs.Valid) :
    inst ∈ (ofRegistry index structs).placed ↔ inst ∈ structs.entries ∧ (index.struct? inst.genericName).isSome := by
  have visits : Visits index structs structs.latestFirst {} (ofRegistry index structs) := ofRegistry_visits valid
  constructor
  · exact (visits.sound valid (latestFirst_subset structs) sound_empty).1.placed inst
  · rintro ⟨member, declared⟩
    exact (visits.settled valid (latestFirst_subset structs)).2 inst member
      (visits.seen.2 inst (List.mem_reverse.mpr member)) List.not_mem_nil declared

end StructOrder
end GenericC
