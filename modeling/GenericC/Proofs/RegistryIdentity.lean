import GenericC.Proofs.ExpansionClosure

/-! What a registry takes for one instantiation. It compares texts, the keys of type arguments, and never the types
themselves. As long as it is fed with types whose names can stand in a key, and every source has only such names, this
comes to comparing the generic name and the types one by one. -/

namespace GenericC
namespace Registry

theorem register_heads (registry : Registry) (name : Text) (args : List TypeExpr) (site : UseSite) (origin : Origin) :
    (registry.register name args site origin).1.heads ⊆ registry.heads ++ [(name, args)] := by
  have step := register_cases registry name args site origin
  generalize registry.register name args site origin = outcome at step ⊢
  cases step with
  | existing known entry => exact heads_existing entry site ▸ List.subset_append_left _ _
  | collision missing owned => exact List.subset_append_left _ _
  | created missing unowned => exact heads_created registry name args site origin _ _ ▸ List.Subset.refl _

theorem heads_afterCalls {registry : Registry} (calls : List Call) {head : Text × List TypeExpr}
    (member : head ∈ (registry.afterCalls calls).heads) :
    head ∈ registry.heads ∨ ∃ call ∈ calls, head = (call.name, call.args) := by
  induction calls generalizing registry with
  | nil => exact .inl member
  | cons call rest ih =>
    rcases ih member with early | ⟨other, later, same⟩
    · rcases List.mem_append.mp (register_heads registry call.name call.args call.site call.origin early) with old | new
      · exact .inl old
      · exact .inr ⟨call, List.mem_cons_self, List.mem_singleton.mp new⟩
    · exact .inr ⟨other, List.mem_cons_of_mem _ later, same⟩

/-- Everything registered has type arguments that can be told apart by their keys. -/
def Keyed (registry : Registry) : Prop := ∀ entry ∈ registry.entries, TypeExpr.AllKeyed entry.typeArgs

theorem afterCalls_keyed (kind : InstKind) {calls : List Call} (fed : ∀ call ∈ calls, TypeExpr.AllKeyed call.args) :
    (afterCalls { kind } calls).Keyed := by
  intro entry member
  have head : (entry.genericName, entry.typeArgs) ∈ (afterCalls { kind } calls).heads := List.mem_map.mpr ⟨entry, member, rfl⟩
  rcases heads_afterCalls calls head with early | ⟨call, asked, same⟩
  · cases early
  · have types : entry.typeArgs = call.args := congrArg Prod.snd same
    rw [types]
    exact fed call asked

theorem Valid.find?_eq_some_iff {registry : Registry} (valid : registry.Valid) (keyed : registry.Keyed) (name : Text)
    {args : List TypeExpr} (asked : TypeExpr.AllKeyed args) (entry : Instantiation) :
    registry.find? name args = some entry ↔
      entry ∈ registry.entries ∧ entry.genericName = name ∧ TypeExpr.sameLists entry.typeArgs args = true := by
  rw [find?, valid.findKey?_eq_some]
  apply and_congr_right
  intro member
  rw [valid.key entry member, keyOf, keyOf, InstKey.mk.injEq, TypeExpr.listKey_eq_iff (keyed entry member) asked]
  simp only [true_and]

theorem register_existing_iff (registry : Registry) (name : Text) (args : List TypeExpr) (site : UseSite) (origin : Origin)
    (found : Instantiation) :
    (registry.register name args site origin).2 = .existing found ↔
      ∃ entry, registry.find? name args = some entry ∧ found = entry.addSite site := by
  have step := register_cases registry name args site origin
  generalize registry.register name args site origin = outcome at step ⊢
  unfold find?
  cases step with
  | @existing place inst known entry =>
    rw [known]
    constructor
    · intro same
      cases same
      exact ⟨inst, rfl, rfl⟩
    · rintro ⟨other, same, rfl⟩
      cases same
      rfl
  | collision missing owned | created missing unowned => simp [missing]

end Registry

/-- Types have one key exactly when they are the same, and so have lists of type arguments. A registry that was fed with
such arguments therefore returns an entry that it has exactly when the generic name and the types of the entry are those
asked for, one by one. The types of every program that was read are of this kind. -/
theorem identity_is_structural :
    (∀ a b : TypeExpr, a.Keyed → b.Keyed → (a.key = b.key ↔ a.same b = true)) ∧
    (∀ as bs : List TypeExpr, TypeExpr.AllKeyed as → TypeExpr.AllKeyed bs →
      (TypeExpr.listKey as = TypeExpr.listKey bs ↔ TypeExpr.sameLists as bs = true)) ∧
    (∀ (kind : InstKind) (calls : List Registry.Call) (next : Registry.Call),
      (∀ call ∈ calls, TypeExpr.AllKeyed call.args) → TypeExpr.AllKeyed next.args →
      let registry := Registry.afterCalls { kind } calls
      (∀ entry, registry.find? next.name next.args = some entry ↔
        entry ∈ registry.entries ∧ entry.genericName = next.name ∧
          TypeExpr.sameLists entry.typeArgs next.args = true) ∧
      ∀ found, (registry.call next).2 = .existing found ↔
        ∃ entry ∈ registry.entries, entry.genericName = next.name ∧
          TypeExpr.sameLists entry.typeArgs next.args = true ∧ found = entry.addSite next.site) ∧
    ∀ (settings : ParseSettings) (file : UInt32) (content : Text),
      ∀ decl ∈ (parseFile settings file content).program.decls, decl.toNode.Keyed := by
  refine ⟨fun _ _ => TypeExpr.key_eq_iff, fun _ _ => TypeExpr.listKey_eq_iff, ?_, ?_⟩
  · intro kind calls next fed asked registry
    have valid : registry.Valid := Registry.afterCalls_valid (Registry.valid_fresh kind) calls
    have find := valid.find?_eq_some_iff (Registry.afterCalls_keyed kind fed) next.name asked
    refine ⟨find, ?_⟩
    intro found
    rw [Registry.call, Registry.register_existing_iff]
    apply exists_congr
    intro entry
    rw [find entry, and_assoc, and_assoc]
  · intro settings file content decl member
    exact (parseFile_written settings file content decl member).types.keyed

def pairCalls : List Registry.Call :=
  [⟨"Pair", [.named "int" Span.nowhere, .applied "Box" [.pointer (.named "char" Span.nowhere) Span.nowhere] Span.nowhere],
    ⟨Span.nowhere, "main"⟩, {}⟩,
   ⟨"Box", [.pointer (.named "char" Span.nowhere) Span.nowhere], ⟨Span.nowhere, "main"⟩, {}⟩]

/-- Asked for once more from another place, the box is found. -/
theorem pairCalls_finds_box :
    (∀ call ∈ pairCalls, TypeExpr.AllKeyed call.args) ∧
      ∃ entry ∈ (Registry.afterCalls { kind := .struct } pairCalls).entries, entry.genericName = "Box" ∧
        TypeExpr.sameLists entry.typeArgs [.pointer (.named "char" ⟨0, 3, 7⟩) ⟨0, 3, 8⟩] = true := by
  have fed : ∀ call ∈ pairCalls, TypeExpr.AllKeyed call.args := by
    simp only [pairCalls, List.forall_mem_cons, List.not_mem_nil, false_implies, implies_true, and_true, TypeExpr.AllKeyed,
      TypeExpr.Keyed, KeyName]
    decide +kernel
  have asked : TypeExpr.AllKeyed [.pointer (.named "char" ⟨0, 3, 7⟩) ⟨0, 3, 8⟩] := by
    simp only [TypeExpr.AllKeyed, TypeExpr.Keyed, KeyName]
    decide +kernel
  obtain ⟨entry, member, named, same, -⟩ := ((identity_is_structural.2.2.1 .struct pairCalls
    ⟨"Box", [.pointer (.named "char" ⟨0, 3, 7⟩) ⟨0, 3, 8⟩], ⟨⟨0, 3, 8⟩, "other"⟩, {}⟩ fed asked).2 _).mp rfl
  exact ⟨fed, entry, member, named, same⟩

end GenericC
