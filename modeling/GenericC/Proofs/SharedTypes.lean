import GenericC.Proofs.ReplacedParameters

/-! Types whose nodes have addresses. A substitution keeps the nodes in which nothing changes and makes new ones only
above a change; which nodes these are it learns by comparing addresses. What comes out reads like the type that is built
anew throughout. -/

namespace GenericC

namespace Subst

variable {subst : Subst}

theorem changeList?_eq_none {types : List TypeExpr} :
    subst.changeList? types = none ↔ ∀ type ∈ types, subst.change? type = none := by
  induction types with
  | nil => simp [changeList?]
  | cons type rest ih =>
    rw [changeList?, List.forall_mem_cons, ← ih]
    cases subst.change? type <;> cases subst.changeList? rest <;> simp

theorem change?_eq_none {type : TypeExpr} :
    subst.change? type = none ↔ ∀ name ∈ type.names, subst.find? name = none := by
  induction type using TypeExpr.byParts with
  | absent | named name loc => simp [change?, TypeExpr.names]
  | pointer elem loc ih =>
    rw [change?, Option.map_eq_none_iff, ih]
    rfl
  | applied name args loc ih =>
    rw [change?, TypeExpr.names, TypeExpr.namesOfAll_eq, List.forall_mem_cons, List.forall_mem_flatMap]
    cases subst.find? name with
    | some bound => simp
    | none =>
      dsimp only
      rw [Option.map_eq_none_iff, changeList?_eq_none, forall₂_congr ih]
      exact (and_iff_right rfl).symm

end Subst

/-- Where a node is kept. All new nodes are told apart from the old ones, and nothing else is asked about them. -/
inductive Address
  | nil
  | old (number : Nat)
  | new
deriving DecidableEq

inductive TypeNode
  | absent
  | named (address : Address) (name : Text) (loc : Span)
  | applied (address : Address) (name : Text) (args : List TypeNode) (loc : Span)
  | pointer (address : Address) (elem : TypeNode) (loc : Span)

namespace TypeNode

def address : TypeNode → Address
  | absent => .nil
  | named address _ _ | applied address _ _ _ | pointer address _ _ => address

def read : TypeNode → TypeExpr
  | absent => .absent
  | named _ name loc => .named name loc
  | applied _ name args loc => .applied name (args.map read) loc
  | pointer _ elem loc => .pointer elem.read loc

def parts : TypeNode → List TypeNode
  | absent => [absent]
  | named address name loc => [named address name loc]
  | applied address name args loc => applied address name args loc :: args.flatMap parts
  | pointer address elem loc => pointer address elem loc :: elem.parts

mutual
/-- Replaces bound names. A node stays when all below it stays where it is. -/
def share (bound : List (Text × TypeNode)) : TypeNode → TypeNode
  | absent => absent
  | named address name loc => (bound.lookup name).getD (named address name loc)
  | pointer address elem loc =>
    let changed := share bound elem
    if changed.address = elem.address then pointer address elem loc else pointer .new changed loc
  | applied address name args loc =>
    match bound.lookup name with
    | some type => type
    | none =>
      match shareArgs bound [] none args with
      | none => applied address name args loc
      | some copied => applied .new name copied loc

/-- The arguments in a new list, if one of them changes. The list is only made at the first change, from the arguments
that were passed by then. -/
def shareArgs (bound : List (Text × TypeNode)) (passed : List TypeNode) (copied : Option (List TypeNode)) :
    List TypeNode → Option (List TypeNode)
  | [] => copied
  | arg :: rest =>
    let changed := share bound arg
    let copied := if copied.isNone && changed.address ≠ arg.address then some passed else copied
    shareArgs bound (passed ++ [arg]) (copied.map (· ++ [changed])) rest
end

theorem byParts {motive : TypeNode → Prop} (absent : motive .absent)
    (named : ∀ address name loc, motive (.named address name loc))
    (applied : ∀ address name args loc, (∀ arg ∈ args, motive arg) → motive (.applied address name args loc))
    (pointer : ∀ address elem loc, motive elem → motive (.pointer address elem loc)) (type : TypeNode) :
    motive type := by
  exact @TypeNode.rec motive (fun args => ∀ arg ∈ args, motive arg) absent named applied pointer
    (by simp) (fun _ _ here later => List.forall_mem_cons.mpr ⟨here, later⟩) type

/-- A node before a substitution: it is old, and a binding with the same address is the same node. -/
def Laid (bound : List (Text × TypeNode)) (type : TypeNode) : Prop :=
  ∀ part ∈ type.parts, part.address ≠ .new ∧ ∀ binding ∈ bound, binding.2.address = part.address → binding.2 = part

section
variable {bound : List (Text × TypeNode)} {address : Address} {name : Text} {args : List TypeNode} {loc : Span}

theorem self_mem (type : TypeNode) : type ∈ type.parts := by
  cases type <;> simp [parts]

theorem parts_pointer (elem : TypeNode) : elem.parts ⊆ (pointer address elem loc).parts := by
  rw [parts]
  exact List.subset_cons_self _ _

theorem parts_applied {arg : TypeNode} (member : arg ∈ args) : arg.parts ⊆ (applied address name args loc).parts := by
  rw [parts]
  exact fun part inside => List.mem_cons_of_mem _ (List.mem_flatMap_of_mem member inside)

theorem Laid.elem {elem : TypeNode} (laid : Laid bound (pointer address elem loc)) : Laid bound elem :=
  fun part member => laid part (parts_pointer elem member)

theorem Laid.arg (laid : Laid bound (applied address name args loc)) : ∀ arg ∈ args, Laid bound arg :=
  fun _ member part inside => laid part (parts_applied member inside)

theorem share_cases (type : TypeNode) : share bound type = type ∨ (∃ name, (name, share bound type) ∈ bound) ∨
    (share bound type).address = .new := by
  cases type with
  | absent => exact .inl rfl
  | named address name loc =>
    rw [share]
    cases found : bound.lookup name with
    | none => exact .inl rfl
    | some type => exact .inr (.inl ⟨name, lookup_mem found⟩)
  | pointer address elem loc =>
    rw [share]
    split
    · exact .inl rfl
    · exact .inr (.inr rfl)
  | applied address name args loc =>
    rw [share]
    cases found : bound.lookup name with
    | some type => exact .inr (.inl ⟨name, lookup_mem found⟩)
    | none =>
      cases shareArgs bound [] none args with
      | none => exact .inl rfl
      | some copied => exact .inr (.inr rfl)

theorem Laid.share_eq {type : TypeNode} (laid : Laid bound type) (same : (share bound type).address = type.address) :
    share bound type = type := by
  obtain ⟨old, unique⟩ := laid type type.self_mem
  rcases share_cases type with stays | ⟨name, member⟩ | new
  · exact stays
  · exact unique _ member same
  · exact absurd (same.symm.trans new) old

theorem shareArgs_copied (passed copied rest : List TypeNode) :
    shareArgs bound passed (some copied) rest = some (copied ++ rest.map (share bound)) := by
  induction rest generalizing passed copied with
  | nil => rw [shareArgs, List.map_nil, List.append_nil]
  | cons arg rest ih =>
    rw [shareArgs, Option.isNone_some, Bool.false_and, if_neg Bool.false_ne_true, Option.map_some, ih, List.append_assoc]
    rfl

theorem shareArgs_eq (passed : List TypeNode) (laid : ∀ arg ∈ args, Laid bound arg) :
    shareArgs bound passed none args =
      if ∀ arg ∈ args, (share bound arg).address = arg.address then none
      else some (passed ++ args.map (share bound)) := by
  induction args generalizing passed with
  | nil => simp [shareArgs]
  | cons arg rest ih =>
    obtain ⟨here, later⟩ := List.forall_mem_cons.mp laid
    rw [shareArgs]
    by_cases same : (share bound arg).address = arg.address
    · simp only [same, ne_eq, not_true, decide_false, Bool.and_false, Bool.false_eq_true, if_false, Option.map_none]
      rw [ih _ later]
      simp [here.share_eq same]
    · simp only [ne_eq, same, not_false_eq_true, decide_true, Option.isNone_none, Bool.and_self, if_true,
        Option.map_some]
      rw [shareArgs_copied, if_neg fun all => same (all arg List.mem_cons_self), List.append_assoc]
      rfl

theorem share_applied (unbound : bound.lookup name = none) (laid : ∀ arg ∈ args, Laid bound arg) :
    share bound (applied address name args loc) =
      if ∀ arg ∈ args, (share bound arg).address = arg.address then applied address name args loc
      else applied .new name (args.map (share bound)) loc := by
  rw [share, unbound]
  dsimp only
  rw [shareArgs_eq [] laid]
  by_cases same : ∀ arg ∈ args, (share bound arg).address = arg.address
  · rw [if_pos same, if_pos same]
  · rw [if_neg same, if_neg same, List.nil_append]

theorem Laid.read_share {subst : Subst} (find : ∀ name, subst.find? name = (bound.lookup name).map read)
    {type : TypeNode} (laid : Laid bound type) : (share bound type).read = subst.type type.read := by
  induction type using TypeNode.byParts with
  | absent => rw [share, read]; rfl
  | named address name loc =>
    rw [share, read, Subst.type_named, find]
    cases bound.lookup name with
    | none => rw [Option.getD_none, read]; rfl
    | some type => rfl
  | pointer address elem loc ih =>
    have below := laid.elem
    rw [share, read, Subst.type_pointer, ← ih below]
    split
    next same => rw [below.share_eq same, read]
    · rw [read]
  | applied address name args loc ih =>
    have below := laid.arg
    rw [read, Subst.type_applied, find]
    cases found : bound.lookup name with
    | some type => rw [share, found]; rfl
    | none =>
      have images : subst.types (args.map read) = (args.map (share bound)).map read := by
        rw [Subst.types, List.map_map, List.map_map]
        exact List.map_congr_left fun arg member => (ih arg member (below arg member)).symm
      rw [share_applied found below, Option.map_none, Option.getD_none, images]
      split
      next same =>
        have stay := List.map_congr_left fun arg member => (below arg member).share_eq (same arg member)
        rw [read, stay, List.map_id']
      · rw [read]

theorem Laid.moved {type bind : TypeNode} (laid : Laid bound type)
    (apart : ∀ part ∈ type.parts, part ∈ bound.map Prod.snd → part = absent) (present : type ≠ absent)
    (found : bound.lookup name = some bind) : bind.address ≠ type.address := by
  intro same
  have member := lookup_mem found
  have itself : bind = type := (laid type type.self_mem).2 _ member same
  exact present (apart type type.self_mem (itself ▸ List.mem_map_of_mem member))

/-- Apart from bindings that are nodes of the type, a node stays where it is when nothing changes in its type. -/
theorem Laid.share_stays {subst : Subst} (find : ∀ name, subst.find? name = (bound.lookup name).map read)
    {type : TypeNode} (laid : Laid bound type) (apart : ∀ part ∈ type.parts, part ∈ bound.map Prod.snd → part = absent) :
    (share bound type).address = type.address ↔ subst.change? type.read = none := by
  have old := (laid type type.self_mem).1
  induction type using TypeNode.byParts with
  | absent =>
    rw [share, read]
    exact iff_of_true rfl rfl
  | named address name loc =>
    rw [share, read, Subst.change?, find]
    cases found : bound.lookup name with
    | none => exact iff_of_true rfl rfl
    | some bind => exact iff_of_false (laid.moved apart TypeNode.noConfusion found) (Option.some_ne_none _)
  | pointer address elem loc ih =>
    have inside := @parts_pointer address loc elem
    have below := laid.elem
    have same : (share bound elem).address = elem.address ↔ _ :=
      ih below (fun part member => apart part (inside member)) (below elem elem.self_mem).1
    rw [read, Subst.change?, Option.map_eq_none_iff, ← same, share]
    split
    next stays => exact iff_of_true rfl stays
    next other => exact iff_of_false (old ·.symm) other
  | applied address name args loc ih =>
    have below := laid.arg
    have same : (∀ arg ∈ args, (share bound arg).address = arg.address) ↔
        subst.changeList? (args.map read) = none := by
      rw [Subst.changeList?_eq_none, List.forall_mem_map]
      refine forall₂_congr fun arg member => ?_
      exact ih arg member (below arg member) (fun part inside => apart part (parts_applied member inside))
        (below arg member arg arg.self_mem).1
    rw [read, Subst.change?, find]
    cases found : bound.lookup name with
    | some bind =>
      rw [share, found]
      exact iff_of_false (laid.moved apart TypeNode.noConfusion found) (Option.some_ne_none _)
    | none =>
      dsimp only [Option.map_none]
      rw [share_applied found below, Option.map_eq_none_iff, ← same]
      split
      next all => exact iff_of_true rfl all
      next other => exact iff_of_false (old ·.symm) other

end
end TypeNode

namespace Subst

variable (subst : Subst)

def rebuild (subst : Subst) : TypeExpr → TypeExpr
  | .absent => .absent
  | .named name loc => (subst.find? name).getD (.named name loc)
  | .pointer elem loc => .pointer (subst.rebuild elem) loc
  | .applied name args loc => (subst.find? name).getD (.applied name (args.map subst.rebuild) loc)

theorem type_eq_rebuild (type : TypeExpr) : subst.type type = subst.rebuild type := by
  induction type using TypeExpr.byParts with
  | absent => rw [rebuild]; rfl
  | named name loc => rw [rebuild]; rfl
  | pointer elem loc ih => rw [rebuild, type_pointer, ih]
  | applied name args loc ih => rw [rebuild, type_applied, types, List.map_congr_left ih]

theorem pointerDepth_type (depth : Nat) (type : TypeExpr) :
    (subst.type (type.pointers depth)).pointerDepth = depth + (subst.type type).pointerDepth := by
  induction depth generalizing type with
  | zero => rw [TypeExpr.pointers, Nat.zero_add]
  | succ depth ih =>
    rw [TypeExpr.pointers, ih, type_pointer, TypeExpr.pointerDepth]
    omega

end Subst

/-- A substitution gives the type that is built anew, and nothing changes exactly when there is no bound name in it. The
stars around a type stay. With nodes that are kept where nothing changes it gives the same type, and then the very node
it was given. -/
theorem substitution_shares (params : List TypeParam) (args : List TypeNode) (paired : params.length = args.length) :
    let subst := Subst.ofParams params (args.map TypeNode.read)
    let bound := (params.map (·.name)).zip args
    (∀ type, subst.type type = subst.rebuild type ∧
      (subst.change? type = none ↔
        params = [] ∨ type = .absent ∨ ∀ name ∈ type.names, name ∉ params.map (·.name)) ∧
      ∀ depth, (subst.type (type.pointers depth)).pointerDepth = depth + (subst.type type).pointerDepth) ∧
      ∀ node, TypeNode.Laid bound node → (TypeNode.share bound node).read = subst.type node.read ∧
        ((∀ part ∈ node.parts, part ∈ args → part = .absent) →
          ((TypeNode.share bound node).address = node.address ↔ subst.change? node.read = none)) := by
  intro subst bound
  have find (name : Text) : subst.find? name = (bound.lookup name).map TypeNode.read := lookup_zip_map ..
  have unbound (name : Text) : subst.find? name = none ↔ name ∉ params.map (·.name) := by
    constructor
    · intro none member
      have bound := Subst.find?_ofParams_isSome (paired.trans (List.length_map TypeNode.read).symm) member
      exact absurd none (Option.isSome_iff_ne_none.mp bound)
    · intro outside
      exact Option.eq_none_iff_forall_ne_some.mpr fun type found => outside (List.of_mem_zip (lookup_mem found)).1
  refine ⟨fun type => ⟨subst.type_eq_rebuild type, ?_, fun depth => subst.pointerDepth_type depth type⟩, ?_⟩
  · rw [Subst.change?_eq_none, forall₂_congr fun name _ => unbound name]
    refine ⟨fun all => .inr (.inr all), ?_⟩
    rintro (rfl | rfl | all)
    · exact fun name _ => List.not_mem_nil
    · exact fun name member => nomatch member
    · exact all
  · intro node laid
    refine ⟨laid.read_share find, fun apart => laid.share_stays find ?_⟩
    rwa [List.map_snd_zip (by simp [paired])]

/-- `Pair<char, T*>` is made anew above `T`. -/
theorem substitution_shares_pair :
    let below : TypeNode := .pointer (.old 2) (.named (.old 1) "T" .nowhere) .nowhere
    let pair : TypeNode := .applied (.old 3) "Pair" [.named (.old 0) "char" .nowhere, below] .nowhere
    let int : TypeNode := .named (.old 4) "int" .nowhere
    let param : TypeParam := ⟨"T", .nowhere⟩
    let subst := Subst.ofParams [param] [int.read]
    (TypeNode.share [(param.name, int)] pair).read = subst.type pair.read ∧ subst.change? pair.read ≠ none := by
  intro below pair int param subst
  have laid : TypeNode.Laid [(param.name, int)] pair := by
    simp [TypeNode.Laid, TypeNode.parts, TypeNode.address, pair, below, int]
  have apart : ∀ part ∈ pair.parts, part ∈ [int] → part = .absent := by
    simp [TypeNode.parts, pair, below, int]
  obtain ⟨reads, stays⟩ := (substitution_shares [param] [int] rfl).2 pair laid
  exact ⟨reads, (stays apart).not.mp (by decide +kernel)⟩

end GenericC
