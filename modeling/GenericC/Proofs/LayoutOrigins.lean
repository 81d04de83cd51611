import GenericC.Proofs.PrintedLayout
import GenericC.Proofs.RelatedTrees
import GenericC.Proofs.SubstitutedTypes

/-! Where the references of a layout come from. A type that is written for a declaration stands on a node of its
tree, and a generic function that is called under its C name is called there, each with the type parameters in
scope replaced. -/

namespace GenericC

def Fragment.IsReference : Fragment → Prop
  | type _ => True
  | genericCall _ _ => True
  | _ => False

/-- A reference has its source in a tree. -/
inductive Fragment.From (printer : Printer) (tree : Node) : Fragment → Prop where
  | type {label : NodeLabel} {type written : TypeExpr} (label_mem : label ∈ tree.labels) (type_mem : type ∈ label.types)
      (base : written.base = (printer.subst.type type).base) : From printer tree (.type written)
  | call {label : NodeLabel} (label_mem : label ∈ tree.labels) (call : label.kind = .call) (typed : label.types ≠ [])
      (declared : (printer.index.func? label.callee).isSome) :
      From printer tree (.genericCall label.callee (printer.subst.types label.types))

def Covered (allowed : Fragment → Prop) (layout : List Fragment) : Prop :=
  ∀ fragment ∈ layout, fragment.IsReference → allowed fragment

section
variable {allowed : Fragment → Prop}

theorem Covered.mono {more : Fragment → Prop} {layout : List Fragment} (covered : Covered allowed layout)
    (less : ∀ fragment, allowed fragment → more fragment) : Covered more layout :=
  fun fragment member reference => less fragment (covered fragment member reference)

@[simp] theorem covered_nil : Covered allowed [] := fun _ member => absurd member List.not_mem_nil

@[simp] theorem covered_append {first second : List Fragment} :
    Covered allowed (first ++ second) ↔ Covered allowed first ∧ Covered allowed second :=
  List.forall_mem_append

@[simp] theorem covered_cons {first : Fragment} {rest : List Fragment} :
    Covered allowed (first :: rest) ↔ (first.IsReference → allowed first) ∧ Covered allowed rest :=
  List.forall_mem_cons

theorem covered_flatMap {α : Type} {items : List α} {layout : α → List Fragment}
    (all : ∀ item ∈ items, Covered allowed (layout item)) : Covered allowed (items.flatMap layout) := by
  intro fragment member
  obtain ⟨item, inside, below⟩ := List.mem_flatMap.mp member
  exact all item inside fragment below

namespace Fragment

@[simp] theorem isReference_token (kind : TokenKind) (text : Text) : ¬ (token kind text).IsReference := id

@[simp] theorem isReference_mark (kind : TokenKind) : ¬ (mark kind).IsReference := id

@[simp] theorem isReference_word (text : Text) : ¬ (word text).IsReference := id

@[simp] theorem isReference_blank (text : Text) : ¬ (blank text).IsReference := id

@[simp] theorem isReference_space : ¬ space.IsReference := id

@[simp] theorem isReference_newline : ¬ newline.IsReference := id

@[simp] theorem isReference_literal (kind : TokenKind) (text : Text) : ¬ (literal kind text).IsReference := id

end Fragment

theorem covered_joined {gap : Fragment} (plain : ¬ gap.IsReference) {items : List (List Fragment)}
    (all : ∀ item ∈ items, Covered allowed item) : Covered allowed (Fragment.joined gap items) := by
  cases items with
  | nil => exact covered_nil
  | cons first rest =>
    refine covered_append.mpr ⟨all first List.mem_cons_self, covered_flatMap fun item member => ?_⟩
    simp [plain, all item (List.mem_cons_of_mem _ member)]

end

theorem Fragment.From.mono {printer : Printer} {tree other : Node} {fragment : Fragment}
    (source : fragment.From printer tree) (inside : tree.labels ⊆ other.labels) : fragment.From printer other := by
  cases source with
  | type label_mem type_mem base => exact .type (inside label_mem) type_mem base
  | call label_mem call typed declared => exact .call (inside label_mem) call typed declared

namespace Printer

abbrev CoveredBy (printer : Printer) (tree : Node) (layout : List Fragment) : Prop :=
  Covered (·.From printer tree) layout

/-- The references that come from the first node itself are allowed. -/
structure Allows (printer : Printer) (allowed : Fragment → Prop) (label _other : NodeLabel) : Prop where
  types : ∀ type ∈ label.types, ∀ written : TypeExpr, written.base = (printer.subst.type type).base → allowed (.type written)
  call : label.kind = .call → label.types ≠ [] → (printer.index.func? label.callee).isSome →
    allowed (.genericCall label.callee (printer.subst.types label.types))

theorem allows_from (printer : Printer) (tree : Node) : tree.Own (printer.Allows (·.From printer tree)) :=
  fun _ member =>
    ⟨fun _ inside _ base => .type member inside base, fun call typed declared => .call member call typed declared⟩

variable {printer : Printer} {allowed : Fragment → Prop}

theorem Allows.type {kind : NodeKind} {loc loc' : Span} {type type' : TypeExpr}
    (own : Own (printer.Allows allowed) kind loc loc' [type] [type']) :
    Covered allowed (printer.typeLayout type) := by
  simp only [typeLayout, covered_cons, covered_nil, and_true]
  exact fun _ => own.types type List.mem_cons_self _ rfl

theorem Allows.callee {callee : Expr} {types : List TypeExpr} {span : Span} {name : Fragment}
    {other : NodeLabel} (own : printer.Allows allowed { kind := .call, span, types, callee := callee.calleeName } other)
    (generic : printer.genericCallee callee types = some name) : Covered allowed [name] := by
  simp only [covered_cons, covered_nil, and_true]
  intro reference
  unfold genericCallee at generic
  split at generic
  · cases generic
  next typed =>
    split at generic
    next declared =>
      cases generic
      simp only [Bool.or_eq_true, List.isEmpty_iff, not_or] at typed
      exact own.call rfl typed.1 declared
    · cases generic
      exact absurd reference id

mutual
theorem covered_expr {expr other : Expr} (like : expr.Like (printer.Allows allowed) other) :
    Covered allowed (printer.exprLayout expr) := by
  cases like with
  | name own | literal own => simp [exprLayout]
  | binary own left right =>
    have left := covered_expr left
    have right := covered_expr right
    rw [exprLayout]
    split <;> simp [left, right]
  | unary own inner | step own inner | member own inner | paren own inner => simp [exprLayout, covered_expr inner]
  | index own left right => simp [exprLayout, covered_expr left, covered_expr right]
  | conditional own test yes no => simp [exprLayout, covered_expr test, covered_expr yes, covered_expr no]
  | call own callee args =>
    have args := covered_exprs args
    have callee := covered_expr callee
    rw [exprLayout]
    split
    next name generic => simpa [args] using own.callee generic
    next => simp [callee, args]
  | sizeofType own => simp [exprLayout, own.type]
  | sizeofExpr own inner =>
    have below := covered_expr inner
    rw [exprLayout.eq_def]
    dsimp only
    split <;> simp [below]
  | cast own inner => simp [exprLayout, own.type, covered_expr inner]
  | initList own elems => simp [exprLayout, covered_exprs elems]

theorem covered_exprs {exprs others : List Expr} (like : List.Forall₂ (Expr.Like (printer.Allows allowed)) exprs others) :
    Covered allowed (printer.exprsLayout exprs) := by
  cases like with
  | nil => simp [exprsLayout]
  | cons first rest =>
    have later := covered_exprs rest
    cases rest with
    | nil => exact covered_expr first
    | cons next rest => simp [exprsLayout, covered_expr first, later]
end

theorem covered_all {α : Type} {like : α → α → Prop} {layout : α → List Fragment} {items others : List α}
    (all : List.Forall₂ like items others) (each : ∀ {item other}, like item other → Covered allowed (layout item)) :
    ∀ item ∈ items, Covered allowed (layout item) := by
  induction all with
  | nil => simp
  | cons first rest ih => exact List.forall_mem_cons.mpr ⟨each first, ih⟩

theorem covered_dimensions {dims others : Dimensions} (like : Dimensions.Like (printer.Allows allowed) dims others) :
    Covered allowed (printer.dimensionsLayout dims) := by
  refine covered_flatMap (covered_all like fun size => ?_)
  cases size with
  | none => simp [optionalLayout]
  | some size => simp [optionalLayout, covered_expr size]

theorem covered_initial {init other : Option Expr} (like : Expr.OptionLike (printer.Allows allowed) init other) :
    Covered allowed (printer.initialLayout init) := by
  cases like with
  | none => exact covered_nil
  | some value => simp [initialLayout, covered_expr value]

theorem covered_declared {kind : NodeKind} {loc loc' : Span} {type type' : TypeExpr} {dims dims' : Dimensions}
    (own : Own (printer.Allows allowed) kind loc loc' [type] [type'])
    (like : Dimensions.Like (printer.Allows allowed) dims dims') (name : Text) :
    Covered allowed (printer.declaredLayout type name dims) := by
  unfold declaredLayout
  split <;> simp [own.type, covered_dimensions like]

@[simp] theorem covered_storage (storage : Storage) : Covered allowed storage.layout := by
  unfold Storage.layout
  split <;> split <;> split <;> simp

theorem covered_shared {declarator other : Declarator} (like : declarator.Like (printer.Allows allowed) other) :
    Covered allowed (printer.sharedLayout declarator) := by
  have stars : Covered allowed (List.replicate (printer.subst.type declarator.type).pointerDepth (.mark .star)) := by
    intro fragment member
    rw [(List.mem_replicate.mp member).2]
    simp
  simp [sharedLayout, stars, covered_dimensions like.dims, covered_initial like.init]

theorem base_base (type : TypeExpr) : type.base.base = type.base := by
  induction type using TypeExpr.byParts with
  | pointer elem loc ih => exact ih
  | _ => rfl

theorem covered_vars {decl other : VarDecl} (like : decl.Like (printer.Allows allowed) other) :
    Covered allowed (printer.varsLayout decl) := by
  obtain ⟨storage, vars, loc⟩ := decl
  have each := covered_all like.vars covered_shared
  have all := like.vars
  generalize other.vars = others at all
  cases all with
  | nil => exact covered_storage _
  | cons first rest =>
    cases rest with
    | nil => simp [varsLayout, covered_declared first.own first.dims, covered_initial first.init]
    | cons next rest =>
      have shared := covered_joined Fragment.isReference_space (List.forall_mem_map.mpr each)
      have base := first.own.types _ List.mem_cons_self _ (base_base _)
      simpa [varsLayout, base] using shared

theorem covered_fields {fields others : List Field} (like : List.Forall₂ (Field.Like (printer.Allows allowed)) fields others) :
    Covered allowed (printer.fieldsLayout fields) := by
  have each : ∀ field ∈ fields, Covered allowed (printer.fieldLayout field) :=
    covered_all like fun field => by simp [fieldLayout, covered_declared field.own field.dims]
  simp [fieldsLayout, covered_flatMap each]

theorem covered_signature {decl other : FuncDecl} (like : decl.Like (printer.Allows allowed) other) (name : Text) :
    Covered allowed (printer.signatureLayout decl name) := by
  have each : ∀ item ∈ decl.params.map printer.paramLayout, Covered allowed item :=
    List.forall_mem_map.mpr (covered_all like.params fun param => covered_declared param.own param.dims _)
  have params : Covered allowed (printer.paramsLayout decl) := by
    unfold paramsLayout
    cases decl.variadic with
    | true =>
      have all : ∀ item ∈ decl.params.map printer.paramLayout ++ [[.mark .ellipsis]], Covered allowed item :=
        List.forall_mem_append.mpr ⟨each, by simp⟩
      simpa using covered_joined Fragment.isReference_space all
    | false =>
      by_cases none : (decl.params.map printer.paramLayout).isEmpty
      · simp [none]
      · simpa [none] using covered_joined Fragment.isReference_space each
  simp [signatureLayout, like.own.type, params]

theorem covered_enum {decl other : EnumDecl} (like : decl.Like (printer.Allows allowed) other) :
    Covered allowed (printer.enumLayout decl) := by
  have each : ∀ item ∈ decl.items.map printer.enumItemLayout, Covered allowed item :=
    List.forall_mem_map.mpr (covered_all like.items fun item => by simp [enumItemLayout, covered_initial item.value])
  have items := covered_joined Fragment.isReference_newline each
  unfold enumLayout
  split <;> split <;> simp [items]

theorem covered_typedef {decl other : TypedefDecl} (like : decl.Like (printer.Allows allowed) other) :
    Covered allowed (printer.typedefLayout decl) := by
  unfold typedefLayout
  cases like with
  | type own dims => simp [covered_declared own dims]
  | body own struct dims =>
    dsimp only
    split <;> simp [covered_fields struct.fieldList, covered_dimensions dims]

theorem covered_forInit {init other : ForInit} (like : init.Like (printer.Allows allowed) other) :
    Covered allowed (printer.forInitLayout init) := by
  cases like with
  | absent => exact covered_nil
  | vars decl => exact covered_vars decl
  | expr own value => exact covered_expr value

theorem covered_spaced {value other : Option Expr} (like : Expr.OptionLike (printer.Allows allowed) value other) :
    Covered allowed (printer.spacedLayout value) := by
  cases like with
  | none => exact covered_nil
  | some value => simp [spacedLayout, covered_expr value]

@[simp] theorem covered_lineBreak (level : Nat) : Covered allowed (lineBreak level) := by
  simp [lineBreak]

mutual
theorem covered_stmt (level : Nat) {stmt other : Stmt} (like : stmt.Like (printer.Allows allowed) other) :
    Covered allowed (printer.stmtLayout level stmt) := by
  cases like with
  | block own stmts => simp [stmtLayout, covered_stmts (level + 1) stmts]
  | ret own value => simp [stmtLayout, covered_spaced value]
  | ifThen own test body | whileLoop own test body | doWhile own body test =>
    rw [stmtLayout]
    split <;> simp [covered_expr test, covered_stmt _ body]
  | ifElse own test yes no =>
    rw [stmtLayout]
    split <;> split <;> simp [covered_expr test, covered_stmt _ yes, covered_stmt _ no]
  | forLoop own init test post body =>
    rw [stmtLayout]
    split <;> simp [covered_forInit init, covered_spaced test, covered_spaced post, covered_stmt _ body]
  | breakLoop own | continueLoop own | empty own => simp [stmtLayout]
  | expr own value => simp [stmtLayout, covered_expr value]
  | vars decl => simp [stmtLayout, covered_vars decl]

theorem covered_stmts (level : Nat) {stmts others : List Stmt}
    (like : List.Forall₂ (Stmt.Like (printer.Allows allowed)) stmts others) :
    Covered allowed (printer.stmtsLayout level stmts) := by
  cases like with
  | nil => simp [stmtsLayout]
  | cons first rest => simp [stmtsLayout, covered_stmt level first, covered_stmts level rest]
end

theorem coveredBy_functionLayout {decl : FuncDecl} {body : Block} (found : decl.body = some body) (name : Text) :
    printer.CoveredBy decl.toNode (printer.functionLayout decl name body) := by
  have like := decl.like_self (allows_from printer _)
  have bodies := like.body
  rw [found] at bodies
  cases bodies with
  | some bodies => simp [functionLayout, covered_signature like, covered_stmt 0 bodies]

theorem coveredBy_prototypeLayout (decl : FuncDecl) (name : Text) :
    printer.CoveredBy decl.toNode (printer.prototypeLayout decl name) := by
  simp [prototypeLayout, covered_signature (decl.like_self (allows_from printer _))]

theorem coveredBy_structBodyLayout {decl : StructDecl} {fields : List Field} (found : decl.fields = some fields)
    (name : Text) : printer.CoveredBy decl.toNode (printer.structBodyLayout decl name fields) := by
  have inner := covered_fields (decl.like_self (allows_from printer _)).fieldList
  simp only [StructDecl.fieldList, found, Option.getD_some] at inner
  simp [structBodyLayout, inner]

theorem coveredBy_declLayout (decl : Decl) : printer.CoveredBy decl.toNode (printer.declLayout decl) := by
  cases decl with
  | struct decl =>
    simp only [declLayout, structLayout]
    split
    · exact covered_nil
    · split
      · simp
      next fields found => exact coveredBy_structBodyLayout found decl.name
  | function decl =>
    simp only [declLayout]
    split
    · exact covered_nil
    · split
      · exact coveredBy_prototypeLayout decl decl.name
      next body found => exact coveredBy_functionLayout found decl.name
  | vars decl =>
    have vars : printer.CoveredBy (Decl.vars decl).toNode (printer.varsLayout decl) :=
      covered_vars (decl.like_self (allows_from printer _))
    simpa [declLayout] using vars
  | typedef decl => exact covered_typedef (decl.like_self (allows_from printer _))
  | enum decl => exact covered_enum (decl.like_self (allows_from printer _))
  | inclusion target line loc | directive line loc => exact covered_nil

end Printer

end GenericC
