import GenericC.Proofs.RegistryIdentity
import GenericC.Proofs.TextSplits

/-! When C names tell instantiations apart. A C name is a row of parts with underscores in between: names stand in front of
their arguments, and the mark of a pointer stands behind its type. Such a row can be read back as long as every name
is one part, no name is the mark, the number of arguments follows from the name, and no mark follows the arguments of a
type, where it could belong to the last of them. -/

namespace GenericC

namespace Text

@[elab_as_elim]
theorem byRunes {motive : Text → Prop} (nil : motive [])
    (cons : ∀ {b rest rune}, firstRune (b :: rest) = some rune → 0 < rune.size → motive (rest.drop (rune.size - 1)) →
      motive (b :: rest)) (t : Text) : motive t := by
  match t with
  | [] => exact nil
  | b :: rest =>
    obtain ⟨rune, first, wide⟩ := firstRune_cons b rest
    exact cons first wide (byRunes nil cons (rest.drop (rune.size - 1)))
termination_by t.length
decreasing_by
  simp only [List.length_drop, List.length_cons]
  omega

private theorem foldl_runes {α : Type} {step : Text × Text × α → Rune → Text × Text × α} {t : Text}
    (hands : ∀ rune ∈ t.runes, ∀ rest current done,
      step (rest, current, done) rune = (rest.drop rune.size, current ++ rest.take rune.size, done))
    (current : Text) (done : α) : t.runes.foldl step (t, current, done) = ([], current ++ t, done) := by
  induction t using byRunes generalizing current with
  | nil => rw [runes_nil, List.foldl_nil, List.append_nil]
  | @cons b rest rune first wide ih =>
    have back : (b :: rest).drop rune.size = rest.drop (rune.size - 1) := by
      obtain ⟨more, same⟩ := Nat.exists_eq_add_of_lt wide
      rw [same]
      rfl
    rw [runes_cons first, List.forall_mem_cons] at hands
    rw [runes_cons first, List.foldl_cons, hands.1, back, ih hands.2, List.append_assoc, ← back, List.take_append_drop]

theorem words_eq_singleton {t : Text} (some : t ≠ []) (solid : ∀ rune ∈ t.runes, isBlankCode rune.code = false) :
    t.words = [t] := by
  unfold words
  dsimp only
  rw [foldl_runes (fun rune member rest current done => by dsimp only; rw [if_neg (by simp [solid rune member])])]
  simp [some]

end Text

/-- A name that is one part of a C name and no mark. -/
structure PartName (name : Text) : Prop where
  some : name ≠ []
  joined : Text.byte '_' ∉ name
  solid : ∀ rune ∈ name.runes, Text.isBlankCode rune.code = false
  other : name ≠ Text.ofString "ptr"

theorem PartName.identPart {name : Text} (plain : PartName name) : identPart name = name := by
  rw [GenericC.identPart, Text.words_eq_singleton plain.some plain.solid]
  exact List.append_nil name

namespace TypeExpr

/-- The number of arguments follows from the name, and stars stand behind plain names only. A missing type is spelled
as nothing, which no name is. -/
inductive Ranked (arity : Text → Nat) : TypeExpr → Prop where
  | absent : Ranked arity .absent
  | named {name : Text} {loc : Span} (plain : PartName name) (none : arity name = 0) : Ranked arity (.named name loc)
  | applied {name : Text} {args : List TypeExpr} {loc : Span} (plain : PartName name) (some : args ≠ [])
      (count : args.length = arity name) (each : ∀ arg ∈ args, Ranked arity arg) : Ranked arity (.applied name args loc)
  | pointer {elem : TypeExpr} {loc : Span} (plain : ∀ name args loc, elem.base ≠ .applied name args loc)
      (inner : Ranked arity elem) : Ranked arity (.pointer elem loc)

mutual
def parts : TypeExpr → List Text
  | absent => [[]]
  | named name _ => [name]
  | pointer elem _ => elem.parts ++ [Text.ofString "ptr"]
  | applied name args _ => name :: partsOfAll args

def partsOfAll : List TypeExpr → List Text
  | [] => []
  | first :: rest => first.parts ++ partsOfAll rest
end

variable {arity : Text → Nat}

mutual
theorem splitByte_mangled {type : TypeExpr} (ranked : type.Ranked arity) :
    Text.splitByte (Text.byte '_') type.mangled = type.parts := by
  match ranked with
  | .absent => rfl
  | .named plain _ => rw [mangled, plain.identPart, parts, Text.splitByte_word plain.joined]
  | .pointer _ inner =>
    have mark : Text.splitByte (Text.byte '_') (Text.ofString "ptr") = [Text.ofString "ptr"] :=
      Text.splitByte_word (by decide)
    rw [mangled, parts, ← mark, ← splitByte_mangled inner, ← Text.splitByte_mark_append]
    rfl
  | .applied plain _ _ each =>
    rw [mangled, plain.identPart, parts, splitByte_mangledArgs each, Text.splitByte_word plain.joined]
    rfl

theorem splitByte_mangledArgs {types : List TypeExpr} (ranked : ∀ type ∈ types, type.Ranked arity) (front : Text) :
    Text.splitByte (Text.byte '_') (front ++ mangledArgs types) =
      Text.splitByte (Text.byte '_') front ++ partsOfAll types := by
  match types with
  | [] => rw [mangledArgs, partsOfAll, List.append_nil, List.append_nil]
  | first :: rest =>
    rw [List.forall_mem_cons] at ranked
    rw [mangledArgs, partsOfAll, ← List.append_assoc, splitByte_mangledArgs ranked.2,
      Text.splitByte_mark_append, splitByte_mangled ranked.1, List.append_assoc]
end

theorem parts_of_plain {type : TypeExpr} (plain : ∀ name args loc, type.base ≠ .applied name args loc) :
    type.parts = type.baseName :: List.replicate type.pointerDepth (Text.ofString "ptr") := by
  induction type using byParts with
  | absent | named name loc => rfl
  | applied name args loc => exact absurd rfl (plain name args loc)
  | pointer elem loc ih => rw [parts, ih plain, pointerDepth, List.replicate_succ', ← List.cons_append]; rfl

theorem bare_eq_of_base {first second : TypeExpr} (base : first.base.bare = second.base.bare)
    (stars : first.pointerDepth = second.pointerDepth) : first.bare = second.bare := by
  induction first using byParts generalizing second with
  | pointer elem loc ih =>
    cases second with
    | pointer other _ => exact congrArg (pointer · Span.nowhere) (ih base (Nat.succ.inj stars))
    | _ => cases stars
  | _ =>
    cases second with
    | pointer other _ => cases stars
    | _ => exact base

/-- Nothing that stands behind a type can belong to it. -/
def Ends (rest : List Text) : Prop := rest.head? ≠ some (Text.ofString "ptr")

theorem replicate_append_inj {mark : Text} {first second : Nat} {rest rest' : List Text} (ends : rest.head? ≠ some mark)
    (ends' : rest'.head? ≠ some mark) (same : List.replicate first mark ++ rest = List.replicate second mark ++ rest') :
    first = second ∧ rest = rest' := by
  induction first generalizing second with
  | zero =>
    cases second with
    | zero => exact ⟨rfl, same⟩
    | succ second =>
      rw [List.replicate_zero, List.nil_append] at same
      exact absurd (congrArg List.head? same) ends
  | succ first ih =>
    cases second with
    | zero =>
      rw [List.replicate_zero, List.nil_append] at same
      exact absurd (congrArg List.head? same.symm) ends'
    | succ second =>
      obtain ⟨stars, rest⟩ := ih (List.cons.inj same).2
      exact ⟨congrArg Nat.succ stars, rest⟩

theorem Ranked.base_of_plain {type : TypeExpr} (ranked : type.Ranked arity)
    (plain : ∀ name args loc, type.base ≠ .applied name args loc) :
    type.base = .absent ∨ ∃ name loc, type.base = .named name loc ∧ PartName name ∧ arity name = 0 := by
  induction ranked with
  | absent => exact .inl rfl
  | @named name loc part none => exact .inr ⟨name, loc, rfl, part, none⟩
  | @applied name args loc => exact absurd rfl (plain name args loc)
  | pointer under inner ih => exact ih under

theorem Ranked.front {type : TypeExpr} (ranked : type.Ranked arity) :
    (∃ name args loc, type = .applied name args loc ∧ PartName name ∧ 0 < arity name) ∨
      (∀ name args loc, type.base ≠ .applied name args loc) ∧
        (type.baseName = [] ∨ (PartName type.baseName ∧ arity type.baseName = 0)) := by
  cases ranked with
  | absent => exact .inr ⟨nofun, .inl rfl⟩
  | named part none => exact .inr ⟨nofun, .inr ⟨part, none⟩⟩
  | applied part some count each => exact .inl ⟨_, _, _, rfl, part, count ▸ List.length_pos_iff.mpr some⟩
  | @pointer elem loc under inner =>
    refine .inr ⟨under, ?_⟩
    have named : (TypeExpr.pointer elem loc).baseName = elem.baseName := rfl
    rw [named, baseName]
    rcases inner.base_of_plain under with base | ⟨name, loc, base, part, none⟩
    · rw [base]
      exact .inl rfl
    · rw [base]
      exact .inr ⟨part, none⟩

theorem Ranked.ends {type : TypeExpr} (ranked : type.Ranked arity) (rest : List Text) : Ends (type.parts ++ rest) := by
  rcases ranked.front with ⟨name, args, loc, rfl, part, -⟩ | ⟨plain, head⟩
  · exact fun marked => part.other (Option.some.inj marked)
  · rw [parts_of_plain plain]
    intro marked
    have marked : type.baseName = Text.ofString "ptr" := Option.some.inj marked
    rcases head with none | ⟨part, -⟩
    · exact absurd (none.symm.trans marked) (by decide)
    · exact part.other marked

theorem ends_partsOfAll {types : List TypeExpr} (ranked : ∀ type ∈ types, type.Ranked arity) {rest : List Text}
    (ends : Ends rest) : Ends (partsOfAll types ++ rest) := by
  cases types with
  | nil => exact ends
  | cons first types =>
    rw [partsOfAll, List.append_assoc]
    exact (ranked first List.mem_cons_self).ends _

/-- A name that takes arguments is not read as one that takes none. -/
theorem Ranked.front_ne {type : TypeExpr} (ranked : type.Ranked arity)
    (plain : ∀ name args loc, type.base ≠ .applied name args loc) {name : Text} (part : PartName name)
    (some : 0 < arity name) : type.baseName ≠ name := by
  intro same
  rcases ranked.front with ⟨other, args, loc, rfl, -, -⟩ | ⟨-, none | ⟨-, none⟩⟩
  · exact plain other args loc rfl
  · exact part.some (same.symm.trans none)
  · exact absurd (same ▸ none) (Nat.ne_of_gt some)

theorem Ranked.plain_parts_inj {first second : TypeExpr} (ranked : first.Ranked arity) (ranked' : second.Ranked arity)
    (plain : ∀ name args loc, first.base ≠ .applied name args loc) {rest rest' : List Text} (ends : Ends rest)
    (ends' : Ends rest') (same : first.parts ++ rest = second.parts ++ rest') :
    first.bare = second.bare ∧ rest = rest' := by
  rw [parts_of_plain plain] at same
  rcases ranked'.front with ⟨name, args, loc, rfl, part, some⟩ | ⟨plain', -⟩
  · exact absurd (List.cons.inj same).1 (ranked.front_ne plain part some)
  rw [parts_of_plain plain'] at same
  obtain ⟨heads, tails⟩ := List.cons.inj same
  obtain ⟨stars, rest⟩ := replicate_append_inj ends ends' tails
  refine ⟨bare_eq_of_base ?_ stars, rest⟩
  unfold baseName at heads
  rcases ranked.base_of_plain plain with base | ⟨name, loc, base, part, -⟩ <;>
    rcases ranked'.base_of_plain plain' with base' | ⟨name', loc', base', part', -⟩ <;>
    rw [base, base'] at heads ⊢
  · exact absurd heads.symm part'.some
  · exact absurd heads part.some
  · exact congrArg (TypeExpr.named · Span.nowhere) heads

theorem all_parts_inj {types types' : List TypeExpr} (ranked : ∀ type ∈ types, type.Ranked arity)
    (reads : ∀ type ∈ types, ∀ {other : TypeExpr}, other.Ranked arity → ∀ {rest rest' : List Text}, Ends rest →
      Ends rest' → type.parts ++ rest = other.parts ++ rest' → type.bare = other.bare ∧ rest = rest')
    (ranked' : ∀ type ∈ types', type.Ranked arity) (count : types.length = types'.length) {rest rest' : List Text}
    (ends : Ends rest) (ends' : Ends rest') (same : partsOfAll types ++ rest = partsOfAll types' ++ rest') :
    bareAll types = bareAll types' ∧ rest = rest' := by
  induction types generalizing types' with
  | nil =>
    cases types' with
    | nil => exact ⟨rfl, same⟩
    | cons => cases count
  | cons first types ih =>
    cases types' with
    | nil => cases count
    | cons other types' =>
      rw [List.forall_mem_cons] at ranked reads ranked'
      rw [partsOfAll, partsOfAll, List.append_assoc, List.append_assoc] at same
      obtain ⟨head, tail⟩ := reads.1 ranked'.1 (ends_partsOfAll ranked.2 ends) (ends_partsOfAll ranked'.2 ends') same
      obtain ⟨later, rest⟩ := ih ranked.2 reads.2 ranked'.2 (Nat.succ.inj count) tail
      refine ⟨?_, rest⟩
      rw [bareAll, bareAll, head, later]

theorem Ranked.parts_inj {first second : TypeExpr} (ranked : first.Ranked arity) (ranked' : second.Ranked arity)
    {rest rest' : List Text} (ends : Ends rest) (ends' : Ends rest')
    (same : first.parts ++ rest = second.parts ++ rest') : first.bare = second.bare ∧ rest = rest' := by
  induction ranked generalizing second rest rest' with
  | absent => exact plain_parts_inj .absent ranked' nofun ends ends' same
  | named part none => exact plain_parts_inj (.named part none) ranked' nofun ends ends' same
  | pointer plain inner => exact plain_parts_inj (.pointer plain inner) ranked' plain ends ends' same
  | @applied name args loc part some count each ih =>
    rcases ranked'.front with ⟨name', args', loc', rfl, part', -⟩ | ⟨plain', -⟩
    · cases ranked' with | applied part' some' count' each' =>
      obtain ⟨rfl, tails⟩ := List.cons.inj same
      obtain ⟨args, rest⟩ := all_parts_inj each ih each' (count.trans count'.symm) ends ends' tails
      exact ⟨congrArg (TypeExpr.applied name · Span.nowhere) args, rest⟩
    · rw [parts_of_plain plain'] at same
      refine absurd (List.cons.inj same).1.symm (ranked'.front_ne plain' part ?_)
      exact count ▸ List.length_pos_iff.mpr some

end TypeExpr

structure Fits (arity : Text → Nat) (name : Text) (args : List TypeExpr) : Prop where
  part : PartName name
  count : args.length = arity name
  each : ∀ arg ∈ args, arg.Ranked arity

variable {arity : Text → Nat}

theorem Fits.splitByte_mangle {name : Text} {args : List TypeExpr} (fits : Fits arity name args) :
    Text.splitByte (Text.byte '_') (mangle name args) = name :: TypeExpr.partsOfAll args := by
  rw [mangle, TypeExpr.splitByte_mangledArgs fits.each, Text.splitByte_word fits.part.joined]
  rfl

theorem Fits.mangle_inj {name name' : Text} {args args' : List TypeExpr} (fits : Fits arity name args)
    (fits' : Fits arity name' args') (same : mangle name args = mangle name' args') :
    name = name' ∧ TypeExpr.sameLists args args' = true := by
  have parts := congrArg (Text.splitByte (Text.byte '_')) same
  rw [fits.splitByte_mangle, fits'.splitByte_mangle] at parts
  obtain ⟨rfl, tails⟩ := List.cons.inj parts
  have ends : TypeExpr.Ends [] := nofun
  obtain ⟨types, -⟩ := TypeExpr.all_parts_inj fits.each (fun type member => (fits.each type member).parts_inj) fits'.each
    (fits.count.trans fits'.count.symm) ends ends (congrArg (· ++ []) tails)
  exact ⟨rfl, (TypeExpr.sameLists_iff_bare args args').mpr types⟩

namespace Registry

theorem register_free {registry : Registry} {name : Text} {args : List TypeExpr} (valid : registry.Valid)
    (apart : ∀ entry ∈ registry.entries, mangle entry.genericName entry.typeArgs = mangle name args →
      entry.genericName = name ∧ TypeExpr.sameLists entry.typeArgs args = true) (site : UseSite) (origin : Origin)
    (report : Diagnostic) : (registry.register name args site origin).2 ≠ .collision report := by
  have step := register_cases registry name args site origin
  generalize registry.register name args site origin = outcome at step ⊢
  cases step with
  | existing found entry | created missing unowned => simp
  | @collision owner missing owned =>
    obtain ⟨member, named⟩ := valid.findMangled?_eq_some.mp owned
    obtain ⟨rfl, types⟩ := apart owner member ((valid.mangled owner member).symm.trans named)
    have key : owner.key = registry.keyOf owner.genericName args := by
      rw [TypeExpr.sameLists_iff_bare] at types
      rw [valid.key owner member, keyOf, keyOf, ← TypeExpr.listKey_bareAll, types, TypeExpr.listKey_bareAll]
    rw [valid.findKey?_eq_some.mpr ⟨member, key⟩] at missing
    cases missing

end Registry

/-- Where every name takes a fixed number of arguments, is one part of a C name and no mark, and stars stand behind plain
names only, instantiations with one C name are the same. So a registry that is asked only for such instantiations
refuses none of them. -/
theorem mangled_names_tell_apart (arity : Text → Nat) :
    (∀ (name name' : Text) (args args' : List TypeExpr), Fits arity name args → Fits arity name' args' →
      mangle name args = mangle name' args' → name = name' ∧ TypeExpr.sameLists args args' = true) ∧
    ∀ (kind : InstKind) (calls : List Registry.Call) (next : Registry.Call),
      (∀ call ∈ calls, Fits arity call.name call.args) → Fits arity next.name next.args →
        ∀ report, ((Registry.afterCalls { kind } calls).call next).2 ≠ .collision report := by
  refine ⟨fun _ _ _ _ fits fits' => fits.mangle_inj fits', ?_⟩
  intro kind calls next asked fits report
  refine Registry.register_free (Registry.afterCalls_valid (Registry.valid_fresh kind) calls) ?_ next.site next.origin report
  intro entry member
  have head : (entry.genericName, entry.typeArgs) ∈ (Registry.afterCalls { kind } calls).heads :=
    List.mem_map.mpr ⟨entry, member, rfl⟩
  rcases Registry.heads_afterCalls calls head with early | ⟨call, called, same⟩
  · cases early
  · obtain ⟨named, types⟩ := Prod.mk.inj same
    rw [named, types]
    exact (asked call called).mangle_inj fits

def pairArity (name : Text) : Nat :=
  if name = Text.ofString "Pair" then 2 else if name = Text.ofString "Box" then 1 else 0

/-- After `Pair<int, Box<char*>>` and `Box<char*>` a box of a pair is not refused, and a box of the same C name holds the
same type. -/
theorem pairCalls_take_box :
    (∀ call ∈ pairCalls, Fits pairArity call.name call.args) ∧
    TypeExpr.sameLists [.pointer (.named "char" Span.nowhere) Span.nowhere]
      [.pointer (.named "char" ⟨0, 3, 7⟩) ⟨0, 3, 8⟩] = true ∧
    ∀ report, ((Registry.afterCalls { kind := .struct } pairCalls).call ⟨"Box", [.applied "Pair" [.pointer (.named "int"
      Span.nowhere) Span.nowhere, .named "char" Span.nowhere] Span.nowhere], ⟨Span.nowhere, "main"⟩, {}⟩).2 ≠
        .collision report := by
  have part {name : Text} (fine : name ∈ [("int" : Text), "char", "Box", "Pair"]) : PartName name := by
    refine ⟨?_, ?_, ?_, ?_⟩ <;> revert name <;> decide +kernel
  have plain {name : Text} {loc : Span} :
      ∀ other args place, (TypeExpr.named name loc).base ≠ .applied other args place := by simp [TypeExpr.base]
  have int {loc : Span} : (TypeExpr.named "int" loc).Ranked pairArity := .named (part (by decide)) (by decide)
  have char {loc : Span} : (TypeExpr.named "char" loc).Ranked pairArity := .named (part (by decide)) (by decide)
  have box : (TypeExpr.applied "Box" [.pointer (.named "char" Span.nowhere) Span.nowhere] Span.nowhere).Ranked pairArity :=
    .applied (part (by decide)) (by simp) (by decide) (by simpa using .pointer plain char)
  have pair : (TypeExpr.applied "Pair" [.pointer (.named "int" Span.nowhere) Span.nowhere, .named "char" Span.nowhere]
      Span.nowhere).Ranked pairArity :=
    .applied (part (by decide)) (by simp) (by decide) (by simpa using ⟨.pointer plain int, char⟩)
  have fed : ∀ call ∈ pairCalls, Fits pairArity call.name call.args := by
    simp only [pairCalls, List.forall_mem_cons, List.not_mem_nil, false_implies, implies_true, and_true]
    exact ⟨⟨part (by decide), by decide, by simpa using ⟨int, box⟩⟩,
      ⟨part (by decide), by decide, by simpa using .pointer plain char⟩⟩
  have here (loc place : Span) : Fits pairArity "Box" [.pointer (.named "char" loc) place] :=
    ⟨part (by decide), by simp only [List.length_singleton]; decide, by simpa using .pointer plain char⟩
  have same := (mangled_names_tell_apart pairArity).1 "Box" "Box" _ _ (here Span.nowhere Span.nowhere)
    (here ⟨0, 3, 7⟩ ⟨0, 3, 8⟩) rfl
  refine ⟨fed, same.2, ?_⟩
  exact (mangled_names_tell_apart pairArity).2 .struct pairCalls _ fed ⟨part (by decide), by decide, by simpa using pair⟩

/-- A star behind arguments reads like one behind the last of them. -/
example : mangle "Box" [.pointer (.applied "Foo" [.named "int" Span.nowhere] Span.nowhere) Span.nowhere] =
    mangle "Box" [.applied "Foo" [.pointer (.named "int" Span.nowhere) Span.nowhere] Span.nowhere] := by decide

end GenericC
