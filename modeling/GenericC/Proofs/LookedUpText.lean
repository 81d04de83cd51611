import GenericC.Proofs.EmittedReferences
import GenericC.Proofs.LookedUpNames
import GenericC.Proofs.RelatedTrees

/-! The text of a declaration, and what is reported about it, depend on the generics that are looked up for it and on
nothing else that is declared. -/

namespace GenericC

def Printer.over (printer : Printer) (index : Index) : Printer := { printer with index }

/-- Another index says the same about all that is looked up when a tree is printed. -/
abbrev Printer.Agrees (printer : Printer) (index : Index) (tree : Node) : Prop :=
  tree.Alike printer.index index printer.subst

namespace Printer

variable {printer : Printer} {index : Index}

theorem render_over {type : TypeExpr} (same : ∀ name ∈ type.heads, index.struct? name = printer.index.struct? name) :
    (printer.over index).render type = printer.render type := by
  induction type using TypeExpr.byParts with
  | absent | named name loc => rfl
  | pointer elem loc ih => rw [render, render, ih same]
  | applied name args loc ih =>
    have own : (printer.over index).index.struct? name = printer.index.struct? name := same name List.mem_cons_self
    rw [render, render, own]
    rfl

theorem sameLabel_over {label : NodeLabel} (agrees : label.Alike printer.index index printer.subst) :
    printer.SameLabel (printer.over index) label label := by
  refine ⟨List.forall₂_same.mpr fun type member => ⟨?_, ?_, rfl⟩, fun call callee callee' name name' => ?_⟩
  · exact (render_over (agrees.structs type member)).symm
  · exact (render_over fun name named => agrees.structs type member name ((TypeExpr.within_base _).heads named)).symm
  · unfold genericCallee?
    rw [name, name']
    by_cases plain : label.types.isEmpty = true
    · rw [plain, Bool.true_or]
      rfl
    · have own : (printer.over index).index.func? label.callee = printer.index.func? label.callee :=
        agrees.func (by simp [NodeLabel.isGenericCall, call, plain])
      rw [own]
      rfl

theorem Agrees.own {tree : Node} (agrees : printer.Agrees index tree) : tree.Own (printer.SameLabel (printer.over index)) :=
  fun label member => sameLabel_over (agrees label member)

theorem fields_over (decl : StructDecl) (agrees : printer.Agrees index decl.toNode) :
    (printer.over index).fields decl.fieldList = printer.fields decl.fieldList :=
  (fields_like (decl.like_self agrees.own).fieldList).symm

theorem signature_over (decl : FuncDecl) (name : Text) (agrees : printer.Agrees index decl.toNode) :
    (printer.over index).signature decl name = printer.signature decl name :=
  (signature_like (decl.like_self agrees.own) name).symm

theorem vars_over (decl : VarDecl) (agrees : printer.Agrees index decl.toNode) :
    (printer.over index).vars decl = printer.vars decl :=
  (vars_like (decl.like_self agrees.own)).symm

theorem function_over {decl : FuncDecl} {body : Block} (name : Text) (found : decl.body = some body)
    (agrees : printer.Agrees index decl.toNode) :
    (printer.over index).function decl name body = printer.function decl name body := by
  have like := decl.like_self agrees.own
  have bodies := like.body
  rw [found] at bodies
  cases bodies with
  | some bodies => exact (function_like like name bodies).symm

theorem declText_over {decl : Decl} (agrees : printer.Agrees index decl.toNode) :
    Emitter.declText (printer.over index) decl = Emitter.declText printer decl :=
  (declText_like (decl.like_self agrees.own)).symm

theorem renderProblem?_over {type : TypeExpr} (same : ∀ name ∈ type.heads, index.struct? name = printer.index.struct? name)
    (plain : index.plain = printer.index.plain) :
    (printer.over index).renderProblem? type = printer.renderProblem? type := by
  induction type using TypeExpr.byParts with
  | absent | named name loc => rfl
  | pointer elem loc ih => exact ih same
  | applied name args loc ih =>
    have own : (printer.over index).index.struct? name = printer.index.struct? name := same name List.mem_cons_self
    have names : (printer.over index).index.plain = printer.index.plain := plain
    rw [renderProblem?, renderProblem?, own, names]

theorem mem_writtenTypes {shared : Bool} {labels : List NodeLabel} {type : TypeExpr}
    (written : type ∈ writtenTypes shared labels) : ∃ label ∈ labels, type ∈ label.types := by
  induction labels generalizing shared with
  | nil => cases written
  | cons label rest ih =>
    have own {skipped : Prop} [Decidable skipped] (member : type ∈ if skipped then [] else label.types) :
        type ∈ label.types := by
      split at member
      · cases member
      · exact member
    unfold writtenTypes at written
    split at written
    all_goals
      rcases List.mem_append.mp written with here | later
      · exact ⟨label, List.mem_cons_self, own here⟩
      · exact (ih later).imp fun _ found => ⟨List.mem_cons_of_mem _ found.1, found.2⟩

theorem problems_over {tree : Node} (agrees : printer.Agrees index tree) (plain : index.plain = printer.index.plain) :
    (printer.over index).problems tree = printer.problems tree := by
  refine List.filterMap_congr fun type written => ?_
  obtain ⟨label, member, inside⟩ := mem_writtenTypes written
  exact renderProblem?_over ((agrees label member).structs type inside) plain

end Printer
end GenericC
