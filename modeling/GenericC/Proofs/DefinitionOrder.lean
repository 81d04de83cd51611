import GenericC.Parser
import GenericC.Proofs.EmittedDocument
import GenericC.Proofs.StructPlacement
import Mathlib.Logic.Relation

/-! Specialized structs are defined in an order that C accepts. The order comes from a depth-first search along the fields
that hold another struct by value. A struct that is visited while it is still open leads back to itself, so without such a
cycle every struct is placed behind all that it embeds. -/

namespace GenericC

variable {dep inst : Instantiation}
namespace StructOrder

variable {index : Index} {structs : Registry}
variable {insts : List Instantiation} {order after : StructOrder}

/-- A field of `inst` is, with the type arguments put in, the registered struct `dep` itself and no pointer to it. -/
inductive Embeds (index : Index) (structs : Registry) (inst dep : Instantiation) : Prop where
  | field {decl : StructDecl} {field : Field} {name : Text} {args : List TypeExpr} {loc : Span}
      (declared : index.struct? inst.genericName = some decl) (fits : decl.typeParams.length = inst.typeArgs.length)
      (member : field ∈ decl.fieldList)
      (type : (Subst.ofParams decl.typeParams inst.typeArgs).type field.type = .applied name args loc)
      (found : structs.find? name args = some dep)

theorem embedded?_eq_some {type : TypeExpr} :
    embedded? structs type = some dep ↔ ∃ name args loc, type = .applied name args loc ∧ structs.find? name args = some dep := by
  cases type <;> simp [embedded?]

theorem mem_members : dep ∈ members index structs inst ↔ Embeds index structs inst dep := by
  unfold members
  constructor
  · intro member
    split at member
    · cases member
    next decl declared =>
      split at member
      next fits =>
        obtain ⟨field, inside, found⟩ := List.mem_filterMap.mp member
        obtain ⟨name, args, loc, type, found⟩ := embedded?_eq_some.mp found
        exact .field declared fits inside type found
      · cases member
  · rintro ⟨declared, fits, inside, type, found⟩
    simp only [declared, fits, if_true, List.mem_filterMap]
    exact ⟨_, inside, embedded?_eq_some.mpr ⟨_, _, _, type, found⟩⟩

theorem Embeds.mem (valid : structs.Valid) (embeds : Embeds index structs inst dep) : dep ∈ structs.entries :=
  members_known valid inst (mem_members.mpr embeds)

theorem Visits.unique {first second : StructOrder} (visits : Visits index structs insts order first)
    (again : Visits index structs insts order second) : first = second := by
  induction visits generalizing second with
  | done =>
    cases again
    rfl
  | again seen _ ih =>
    cases again with
    | again _ later => exact ih later
    | dangling fresh | placed fresh => exact absurd seen fresh
  | dangling fresh missing _ ih =>
    cases again with
    | again seen => exact absurd seen fresh
    | dangling _ _ later => exact ih later
    | placed _ declared => simp [missing] at declared
  | placed fresh declared _ _ ihBelow ih =>
    cases again with
    | again seen => exact absurd seen fresh
    | dangling _ missing => simp [missing] at declared
    | placed _ _ below later =>
      cases ihBelow below
      exact ih later

theorem Visits.fresh (visits : Visits index structs insts order after) (member : inst ∈ after.placed) :
    inst ∈ order.placed ∨ inst.key ∉ order.seen := by
  induction visits with
  | done => exact .inl member
  | again seen _ ih => exact ih member
  | dangling fresh missing _ ih =>
    apply (ih member).imp_right
    exact mt (List.mem_cons_of_mem _)
  | placed fresh declared below _ ihBelow ih =>
    rcases ih member with old | unseen
    · rcases List.mem_cons.mp old with rfl | old
      · exact .inr fresh
      · exact (ihBelow old).imp_right (mt (List.mem_cons_of_mem _))
    · exact .inr fun seen => unseen (below.seen.1 (List.mem_cons_of_mem _ seen))

theorem Visits.distinct (visits : Visits index structs insts order after) (distinct : order.placed.Nodup)
    (seen : ∀ inst ∈ order.placed, inst.key ∈ order.seen) :
    after.placed.Nodup ∧ ∀ inst ∈ after.placed, inst.key ∈ after.seen := by
  induction visits with
  | done => exact ⟨distinct, seen⟩
  | again _ _ ih => exact ih distinct seen
  | dangling _ _ _ ih => exact ih distinct fun inst member => List.mem_cons_of_mem _ (seen inst member)
  | @placed inst rest order middle after fresh declared below _ ihBelow ih =>
    obtain ⟨distinctBelow, seenBelow⟩ := ihBelow distinct fun inst member => List.mem_cons_of_mem _ (seen inst member)
    have new : inst ∉ middle.placed := by
      intro member
      rcases below.fresh member with old | unseen
      · exact fresh (seen inst old)
      · exact unseen List.mem_cons_self
    exact ih (List.nodup_cons.mpr ⟨new, distinctBelow⟩)
      (List.forall_mem_cons.mpr ⟨below.seen.1 List.mem_cons_self, seenBelow⟩)

/-- What is placed stands behind all that it embeds. The latest is first. -/
inductive Sorted (index : Index) (structs : Registry) : List Instantiation → Prop where
  | nil : Sorted index structs []
  | cons {inst : Instantiation} {placed : List Instantiation}
      (members : ∀ dep, Embeds index structs inst dep → (index.struct? dep.genericName).isSome → dep ∈ placed)
      (rest : Sorted index structs placed) : Sorted index structs (inst :: placed)

theorem Sorted.split {later earlier : List Instantiation} (sorted : Sorted index structs (later ++ inst :: earlier))
    (embeds : Embeds index structs inst dep) (declared : (index.struct? dep.genericName).isSome) : dep ∈ earlier := by
  induction later with
  | nil =>
    cases sorted with
    | cons members _ => exact members dep embeds declared
  | cons first rest ih =>
    cases sorted with
    | cons _ rest => exact ih rest

theorem Sorted.before {placed before after : List Instantiation} (sorted : Sorted index structs placed)
    (here : placed.reverse = before ++ inst :: after) (embeds : Embeds index structs inst dep)
    (declared : (index.struct? dep.genericName).isSome) : dep ∈ before := by
  have split : placed = after.reverse ++ inst :: before.reverse := by
    rw [← List.reverse_reverse placed, here]
    simp
  rw [split] at sorted
  exact List.mem_reverse.mp (sorted.split embeds declared)

/-- The search has begun with an instantiation and is not done with it. -/
structure Open (index : Index) (structs : Registry) (order : StructOrder) (inst : Instantiation) : Prop where
  registered : inst ∈ structs.entries
  declared : (index.struct? inst.genericName).isSome
  seen : inst.key ∈ order.seen
  unplaced : inst ∉ order.placed

/-- No struct embeds itself, be it through others. -/
def Acyclic (index : Index) (structs : Registry) : Prop :=
  ∀ inst ∈ structs.entries, ¬ Relation.TransGen (Embeds index structs) inst inst

/-- Whatever is open leads to what is visited, so what is embedded is not open and was placed before. -/
theorem Visits.sorted (valid : structs.Valid) (acyclic : Acyclic index structs) {insts : List Instantiation}
    {order after : StructOrder} (visits : Visits index structs insts order after) (known : insts ⊆ structs.entries)
    (leads : ∀ opened, Open index structs order opened → ∀ inst ∈ insts,
      Relation.TransGen (Embeds index structs) opened inst) (sorted : Sorted index structs order.placed) :
    Sorted index structs after.placed ∧
      ∀ opened, Open index structs after opened → Open index structs order opened := by
  induction visits with
  | done => exact ⟨sorted, fun _ opened => opened⟩
  | again _ _ ih =>
    exact ih (List.cons_subset.mp known).2 (fun opened open' inst inside => leads opened open' inst (List.mem_cons_of_mem _ inside))
      sorted
  | @dangling inst rest order after fresh missing _ ih =>
    obtain ⟨member, known⟩ := List.cons_subset.mp known
    have same : ∀ opened, Open index structs
        { order with seen := inst.key :: order.seen, dangling := inst :: order.dangling } opened →
          Open index structs order opened := by
      intro opened ⟨registered, declared, seen, unplaced⟩
      rcases List.mem_cons.mp seen with equal | seen
      · rw [valid.unique registered member equal, missing] at declared
        cases declared
      · exact ⟨registered, declared, seen, unplaced⟩
    obtain ⟨sorted, closed⟩ := ih known
      (fun opened open' inst inside => leads opened (same opened open') inst (List.mem_cons_of_mem _ inside)) sorted
    exact ⟨sorted, fun opened open' => same opened (closed opened open')⟩
  | @placed inst rest order middle after fresh declared below _ ihBelow ih =>
    obtain ⟨member, known⟩ := List.cons_subset.mp known
    have begun : ∀ opened, Open index structs { order with seen := inst.key :: order.seen } opened →
        opened = inst ∨ Open index structs order opened := by
      intro opened ⟨registered, declared, seen, unplaced⟩
      rcases List.mem_cons.mp seen with equal | seen
      · exact .inl (valid.unique registered member equal)
      · exact .inr ⟨registered, declared, seen, unplaced⟩
    have leadsBelow : ∀ opened, Open index structs { order with seen := inst.key :: order.seen } opened →
        ∀ dep ∈ members index structs inst, Relation.TransGen (Embeds index structs) opened dep := by
      intro opened open' dep inside
      rcases begun opened open' with rfl | old
      · exact .single (mem_members.mp inside)
      · exact (leads opened old inst List.mem_cons_self).tail (mem_members.mp inside)
    obtain ⟨sortedBelow, closedBelow⟩ := ihBelow (members_known valid inst) leadsBelow sorted
    have settled : ∀ dep, Embeds index structs inst dep → (index.struct? dep.genericName).isSome → dep ∈ middle.placed := by
      intro dep embeds declared
      by_contra unplaced
      have inside := mem_members.mpr embeds
      have registered := embeds.mem valid
      have seen := below.seen.2 dep inside
      have open' := closedBelow dep ⟨registered, declared, seen, unplaced⟩
      exact acyclic dep registered (leadsBelow dep open' dep inside)
    have same : ∀ opened, Open index structs { middle with placed := inst :: middle.placed } opened →
        Open index structs order opened := by
      intro opened ⟨registered, declared, seen, unplaced⟩
      have other : opened ≠ inst := fun equal => unplaced (equal ▸ List.mem_cons_self)
      have early := closedBelow opened ⟨registered, declared, seen, mt (List.mem_cons_of_mem _) unplaced⟩
      exact (begun opened early).resolve_left other
    obtain ⟨sorted, closed⟩ := ih known
      (fun opened open' inst inside => leads opened (same opened open') inst (List.mem_cons_of_mem _ inside))
      (.cons settled sortedBelow)
    exact ⟨sorted, fun opened open' => same opened (closed opened open')⟩

theorem nodup_placed_ofRegistry (valid : structs.Valid) : (ofRegistry index structs).placed.Nodup :=
  ((ofRegistry_visits valid).distinct List.nodup_nil (by simp)).1

theorem sorted_ofRegistry (valid : structs.Valid) (acyclic : Acyclic index structs) :
    Sorted index structs (ofRegistry index structs).placed := by
  refine ((ofRegistry_visits valid).sorted valid acyclic (latestFirst_subset structs) ?_ .nil).1
  intro opened open'
  exact absurd open'.seen List.not_mem_nil

end StructOrder

def Item.definedStruct? : Item → Option Instantiation
  | struct inst _ _ => some inst
  | _ => none

namespace Emitter

variable {emitter : Emitter}

theorem definedStruct?_structItem? (index : Index) (inst : Instantiation) :
    (structItem? index inst).bind Item.definedStruct? =
      if (structItem? index inst).isSome then some inst else none := by
  cases found : structItem? index inst with
  | none => rfl
  | some item =>
    obtain ⟨decl, fields, -, -, -, rfl⟩ := structItem?_eq_some found
    rfl

theorem undefined_paragraph {items : List Item} (none : ∀ item ∈ items, item.definedStruct? = none) :
    (Item.paragraph items).filterMap Item.definedStruct? = [] := by
  unfold Item.paragraph
  split
  · rfl
  · rw [List.filterMap_append, List.filterMap_eq_nil_iff.mpr none]
    rfl

theorem definedStructs_document : emitter.document.filterMap Item.definedStruct? =
    emitter.placed.filter fun inst => (structItem? emitter.index inst).isSome := by
  have typedefs : (Item.paragraph (emitter.placed.filterMap (typedefItem? emitter.tagged))).filterMap
      Item.definedStruct? = [] := by
    apply undefined_paragraph
    intro item member
    obtain ⟨inst, -, found⟩ := List.mem_filterMap.mp member
    rw [typedefItem?_eq_some found]
    rfl
  have prototypes : (Item.paragraph ((emitter.specializedFuncs true).map .prototype)).filterMap
      Item.definedStruct? = [] := by
    apply undefined_paragraph
    intro item member
    obtain ⟨func, -, rfl⟩ := List.mem_map.mp member
    rfl
  have functions : ((emitter.specializedFuncs true).filterMap funcItem?).filterMap Item.definedStruct? = [] := by
    apply List.filterMap_eq_nil_iff.mpr
    intro item member
    obtain ⟨func, -, found⟩ := List.mem_filterMap.mp member
    obtain ⟨body, -, rfl⟩ := Option.map_eq_some_iff.mp found
    rfl
  have plain : (emitter.program.decls.filterMap plainItem?).filterMap Item.definedStruct? = [] := by
    apply List.filterMap_eq_nil_iff.mpr
    intro item member
    obtain ⟨decl, -, found⟩ := List.mem_filterMap.mp member
    rw [(plainItem?_eq_some found).2]
    rfl
  have structs : (emitter.placed.filterMap (structItem? emitter.index)).filterMap Item.definedStruct? =
      emitter.placed.filter fun inst => (structItem? emitter.index inst).isSome := by
    rw [List.filterMap_filterMap, ← List.filterMap_eq_filter]
    congr 1
    funext inst
    rw [definedStruct?_structItem?]
    simp [Option.guard]
  simp only [document, structItems, funcItems, if_true, List.filterMap_append, typedefs, structs, prototypes, functions,
    plain, List.append_nil, List.nil_append]
  rfl

theorem mem_placed (valid : emitter.insts.structs.Valid) :
    inst ∈ emitter.placed ↔ inst ∈ emitter.insts.structs.entries ∧ (emitter.index.struct? inst.genericName).isSome := by
  rw [placed, List.mem_reverse, StructOrder.mem_placed_ofRegistry valid]
  rfl

theorem nodup_definedNames (valid : emitter.insts.structs.Valid) :
    ((emitter.document.filterMap Item.definedStruct?).map (·.mangled)).Nodup := by
  rw [definedStructs_document]
  have distinct : emitter.placed.Nodup := List.nodup_reverse.mpr (StructOrder.nodup_placed_ofRegistry valid)
  refine (distinct.filter _).map_on ?_
  intro first here second there same
  have first_mem := ((mem_placed valid).mp (List.mem_of_mem_filter here)).1
  have second_mem := ((mem_placed valid).mp (List.mem_of_mem_filter there)).1
  exact List.inj_on_of_nodup_map valid.distinctNames first_mem second_mem same

theorem struct_mem_document {decl : StructDecl} {fields : List Field}
    (member : .struct inst decl fields ∈ emitter.document) :
    structItem? emitter.index inst = some (.struct inst decl fields) := by
  simp only [document, structItems, funcItems, Item.paragraph, if_true, List.mem_append, List.mem_cons, List.not_mem_nil,
    or_false, reduceCtorEq, false_or] at member
  rcases member with ((typedef | struct) | (prototype | function)) | plain
  · split at typedef
    · cases typedef
    · rcases List.mem_append.mp typedef with typedef | line
      · obtain ⟨other, -, found⟩ := List.mem_filterMap.mp typedef
        cases typedefItem?_eq_some found
      · cases List.mem_singleton.mp line
  · obtain ⟨other, -, found⟩ := List.mem_filterMap.mp struct
    obtain ⟨_, _, -, -, -, same⟩ := structItem?_eq_some found
    cases same
    exact found
  · split at prototype
    · cases prototype
    · rcases List.mem_append.mp prototype with prototype | line
      · obtain ⟨func, -, same⟩ := List.mem_map.mp prototype
        cases same
      · cases List.mem_singleton.mp line
  · obtain ⟨func, -, found⟩ := List.mem_filterMap.mp function
    obtain ⟨body, -, same⟩ := Option.map_eq_some_iff.mp found
    cases same
  · obtain ⟨other, -, found⟩ := List.mem_filterMap.mp plain
    cases (plainItem?_eq_some found).2

theorem defined_before (valid : emitter.insts.structs.Valid)
    (acyclic : StructOrder.Acyclic emitter.index emitter.insts.structs) {before after : List Item}
    {decl other : StructDecl} {fields others : List Field}
    (here : emitter.document = before ++ .struct inst decl fields :: after)
    (embeds : StructOrder.Embeds emitter.index emitter.insts.structs inst dep)
    (found : structItem? emitter.index dep = some (.struct dep other others)) : .struct dep other others ∈ before := by
  have defined : emitter.placed.filter (fun inst => (structItem? emitter.index inst).isSome) =
      before.filterMap Item.definedStruct? ++ inst :: after.filterMap Item.definedStruct? := by
    rw [← definedStructs_document, here, List.filterMap_append, List.filterMap_cons]
    rfl
  obtain ⟨early, late, whole, kept, rest⟩ := List.filter_eq_append_iff.mp defined
  obtain ⟨skipped, tail, rfl, none, -, -⟩ := List.filter_eq_cons_iff.mp rest
  have declared : (emitter.index.struct? dep.genericName).isSome := by
    obtain ⟨decl, fields, declared, -⟩ := structItem?_eq_some found
    exact Option.isSome_of_eq_some declared
  have order : emitter.placed = (early ++ skipped) ++ inst :: tail := by simp [whole]
  have sorted := StructOrder.sorted_ofRegistry valid acyclic
  have placed : dep ∈ early := by
    apply (List.mem_append.mp (sorted.before order embeds declared)).resolve_right
    intro member
    simpa [found] using none dep member
  have counted : dep ∈ before.filterMap Item.definedStruct? := by
    rw [← kept]
    exact List.mem_filter.mpr ⟨placed, by simp [found]⟩
  obtain ⟨item, member, same⟩ := List.mem_filterMap.mp counted
  cases item with
  | struct inst decl fields =>
    cases same
    have inside : .struct dep decl fields ∈ emitter.document := here ▸ List.mem_append_left _ member
    rw [struct_mem_document inside] at found
    cases found
    exact member
  | _ => cases same

end Emitter

theorem StructOrder.acyclic_of_rank {index : Index} {structs : Registry} (valid : structs.Valid) (rank : Instantiation → Nat)
    (falls : ∀ inst ∈ structs.entries, ∀ dep ∈ members index structs inst, rank dep < rank inst) :
    Acyclic index structs := by
  intro inst member cycle
  suffices below : ∀ last, Relation.TransGen (Embeds index structs) inst last →
      rank last < rank inst ∧ last ∈ structs.entries from Nat.lt_irrefl _ (below inst cycle).1
  intro last path
  induction path with
  | single embeds => exact ⟨falls inst member _ (mem_members.mpr embeds), embeds.mem valid⟩
  | tail _ embeds ih => exact ⟨Nat.lt_trans (falls _ ih.2 _ (mem_members.mpr embeds)) ih.1, embeds.mem valid⟩

/-- Whatever was registered, the search for an order of the structs ends, and its one result lists exactly the declared
structs, each once. No two definitions of a file have one C name. Unless a struct embeds itself, be it through others,
every struct comes behind those it embeds, in the order and in the definitions that are written. -/
theorem definitions_follow_members (program : Program) (kind other : InstKind) (calls others : List Registry.Call)
    (collisions : CollisionReports) (settings : EmitSettings) :
    let structs := Registry.afterCalls { kind } calls
    let emitter : Emitter := ⟨program, ⟨structs, Registry.afterCalls { kind := other } others, collisions⟩, settings⟩
    let index := Index.ofProgram program
    let order := (StructOrder.ofRegistry index structs).placed.reverse
    (∀ found, StructOrder.Visits index structs structs.latestFirst {} found ↔ found = StructOrder.ofRegistry index structs) ∧
    order.Nodup ∧ (∀ inst, inst ∈ order ↔ inst ∈ structs.entries ∧ (index.struct? inst.genericName).isSome) ∧
    emitter.emit.text = emitter.document.flatMap (Item.text emitter.printer) ∧
    ((emitter.document.filterMap Item.definedStruct?).map (·.mangled)).Nodup ∧
    ((∀ inst ∈ structs.entries, ¬ Relation.TransGen (StructOrder.Embeds index structs) inst inst) →
      (∀ before inst after, order = before ++ inst :: after → ∀ dep, StructOrder.Embeds index structs inst dep →
        (index.struct? dep.genericName).isSome → dep ∈ before) ∧
      ∀ before inst decl fields after, emitter.document = before ++ .struct inst decl fields :: after →
        ∀ dep, StructOrder.Embeds index structs inst dep → ∀ found members, index.struct? dep.genericName = some found →
          found.fields = some members → found.typeParams.length = dep.typeArgs.length →
          .struct dep found members ∈ before) := by
  intro structs emitter index order
  have valid : structs.Valid := Registry.afterCalls_valid (Registry.valid_fresh kind) calls
  have visits : StructOrder.Visits index structs structs.latestFirst {} (StructOrder.ofRegistry index structs) :=
    StructOrder.ofRegistry_visits valid
  refine ⟨?_, ?_, ?_, Emitter.emit_text emitter, Emitter.nodup_definedNames valid, ?_⟩
  · intro found
    constructor
    · intro same
      exact same.unique visits
    · rintro rfl
      exact visits
  · exact List.nodup_reverse.mpr (StructOrder.nodup_placed_ofRegistry valid)
  · intro inst
    rw [List.mem_reverse, StructOrder.mem_placed_ofRegistry valid]
  · intro acyclic
    refine ⟨?_, ?_⟩
    · intro before inst after here dep embeds declared
      exact (StructOrder.sorted_ofRegistry valid acyclic).before here embeds declared
    · intro before inst decl fields after here dep embeds found members declared given fits
      have item : Emitter.structItem? emitter.index dep = some (.struct dep found members) := by
        have declared : emitter.index.struct? dep.genericName = some found := declared
        simp [Emitter.structItem?, declared, given, Subst.arityError?, fits]
      have acyclic : StructOrder.Acyclic emitter.index emitter.insts.structs := acyclic
      exact Emitter.defined_before valid acyclic here embeds item

def crateOfBox : Text := "struct Crate<T> \x7b Box<T> box; \x7d; struct Box<T> \x7b T item; \x7d;"

def crateCalls : List Registry.Call :=
  [⟨"Box", [.named "int" Span.nowhere], ⟨Span.nowhere, "main"⟩, {}⟩,
   ⟨"Crate", [.named "int" Span.nowhere], ⟨Span.nowhere, "main"⟩, {}⟩]

/-- The crate was registered last and would come first, but its box is placed before it. -/
theorem crateOfBox_order :
    let structs := Registry.afterCalls { kind := .struct } crateCalls
    let index := Index.ofProgram (parseFile {} 0 crateOfBox).program
    let order := (StructOrder.ofRegistry index structs).placed.reverse
    (∀ inst ∈ structs.entries, ¬ Relation.TransGen (StructOrder.Embeds index structs) inst inst) ∧
      ∀ before inst after, order = before ++ inst :: after → ∀ dep, StructOrder.Embeds index structs inst dep →
        (index.struct? dep.genericName).isSome → dep ∈ before := by
  intro structs index order
  have acyclic : StructOrder.Acyclic index structs := by
    apply StructOrder.acyclic_of_rank (Registry.afterCalls_valid (Registry.valid_fresh .struct) crateCalls)
      fun inst => inst.genericName.length
    decide +kernel
  obtain ⟨-, -, -, -, -, sorted⟩ :=
    definitions_follow_members (parseFile {} 0 crateOfBox).program .struct .func crateCalls [] .every {}
  exact ⟨acyclic, (sorted acyclic).1⟩

end GenericC
