import GenericC.Generics.Mangle

/-! Types are found by the text of their keys. The names of a source contain none of the marks that a key
is built with, so a key can be read in one way only: two types have one key exactly when they differ
at most in where they are written. -/

namespace GenericC
open Text (byte)

namespace TypeExpr

mutual
def bare : TypeExpr → TypeExpr
  | absent => absent
  | named name _ => named name Span.nowhere
  | applied name args _ => applied name (bareAll args) Span.nowhere
  | pointer elem _ => pointer elem.bare Span.nowhere

def bareAll : List TypeExpr → List TypeExpr
  | [] => []
  | type :: rest => type.bare :: bareAll rest
end

theorem bareAll_eq_map (types : List TypeExpr) : bareAll types = types.map bare := by
  induction types with
  | nil => rfl
  | cons type rest ih => rw [bareAll, ih, List.map_cons]

mutual
theorem same_iff_bare (a b : TypeExpr) : a.same b = true ↔ a.bare = b.bare := by
  cases a with
  | absent | named name loc => cases b <;> simp [same, bare]
  | applied name args loc =>
    cases b with
    | applied other types _ => simp [same, bare, sameLists_iff_bare args types]
    | _ => simp [same, bare]
  | pointer elem loc =>
    cases b with
    | pointer other _ => simp [same, bare, same_iff_bare elem other]
    | _ => simp [same, bare]

theorem sameLists_iff_bare (as bs : List TypeExpr) : sameLists as bs = true ↔ bareAll as = bareAll bs := by
  cases as with
  | nil => cases bs <;> simp [sameLists, bareAll]
  | cons a as =>
    cases bs with
    | nil => simp [sameLists, bareAll]
    | cons b bs => simp [sameLists, bareAll, same_iff_bare a b, sameLists_iff_bare as bs]
end

mutual
theorem write_bare (separator : Text) (type : TypeExpr) : write separator type.bare = write separator type := by
  cases type with
  | absent | named name loc => rfl
  | applied name args loc => simp only [bare, write, writeList_bare]
  | pointer elem loc => simp only [bare, write, write_bare]

theorem writeList_bare (separator : Text) (types : List TypeExpr) :
    writeList separator (bareAll types) = writeList separator types := by
  match types with
  | [] => rfl
  | [type] => simp only [bareAll, writeList, write_bare]
  | type :: next :: rest =>
    have later := writeList_bare separator (next :: rest)
    simp only [bareAll] at later
    simp only [bareAll, writeList, write_bare, later]
end

theorem listKey_bareAll (types : List TypeExpr) : listKey (bareAll types) = listKey types := by
  rw [bareAll_eq_map, listKey, listKey, List.map_map]
  congr 2
  funext type
  exact write_bare _ type

mutual
theorem mangled_bare (type : TypeExpr) : type.bare.mangled = type.mangled := by
  cases type with
  | absent | named name loc => rfl
  | applied name args loc => simp only [bare, mangled, mangledArgs_bareAll]
  | pointer elem loc => simp only [bare, mangled, mangled_bare]

theorem mangledArgs_bareAll (types : List TypeExpr) : mangledArgs (bareAll types) = mangledArgs types := by
  cases types with
  | nil => rfl
  | cons type rest => simp only [bareAll, mangledArgs, mangled_bare, mangledArgs_bareAll]
end

theorem mangle_bareAll (name : Text) (args : List TypeExpr) : mangle name (bareAll args) = mangle name args := by
  rw [mangle, mangle, mangledArgs_bareAll]

end TypeExpr

def isKeyMark (b : UInt8) : Bool :=
  b = Text.byte '<' || b = Text.byte '>' || b = Text.byte ',' || b = Text.byte '*' || b = Text.byte ';'

def KeyName (name : Text) : Prop := name ≠ [] ∧ ∀ b ∈ name, isKeyMark b = false

namespace TypeExpr

mutual
def Keyed : TypeExpr → Prop
  | absent => False
  | named name _ => KeyName name
  | applied name args _ => KeyName name ∧ AllKeyed args
  | pointer elem _ => elem.Keyed

def AllKeyed : List TypeExpr → Prop
  | [] => True
  | type :: rest => type.Keyed ∧ AllKeyed rest
end

theorem allKeyed_iff (types : List TypeExpr) : AllKeyed types ↔ ∀ type ∈ types, type.Keyed := by
  induction types with
  | nil => simp [AllKeyed]
  | cons type rest ih => simp [AllKeyed, ih]

/-- What may follow a type in a key: nothing, or a mark other than a star and an opening bracket. -/
def EndsKey (rest : Text) : Prop :=
  ∀ b, rest.head? = some b → b = Text.byte '>' ∨ b = Text.byte ',' ∨ b = Text.byte ';'

def EndsName (rest : Text) : Prop := ∀ b, rest.head? = some b → isKeyMark b = true

theorem name_unique {a b x y : Text} (nameA : ∀ c ∈ a, isKeyMark c = false) (nameB : ∀ c ∈ b, isKeyMark c = false)
    (endX : EndsName x) (endY : EndsName y) (same : a ++ x = b ++ y) : a = b ∧ x = y := by
  induction a generalizing b with
  | nil =>
    cases b with
    | nil => exact ⟨rfl, same⟩
    | cons c rest =>
      have mark := endX c (by rw [List.nil_append] at same; rw [same]; rfl)
      rw [nameB c (by simp)] at mark
      cases mark
  | cons d more ih =>
    cases b with
    | nil =>
      have mark := endY d (by rw [List.nil_append] at same; rw [← same]; rfl)
      rw [nameA d (by simp)] at mark
      cases mark
    | cons c rest =>
      rw [List.cons_append, List.cons_append, List.cons.injEq] at same
      obtain ⟨rfl, same⟩ := same
      obtain ⟨rfl, rfl⟩ := ih (fun c member => nameA c (by simp [member])) (fun c member => nameB c (by simp [member])) same
      exact ⟨rfl, rfl⟩

def starText (count : Nat) : Text := List.replicate count (Text.byte '*')

theorem stars_unique {k l : Nat} {x y : Text} (endX : EndsKey x) (endY : EndsKey y)
    (same : starText k ++ x = starText l ++ y) : k = l ∧ x = y := by
  induction k generalizing l with
  | zero =>
    cases l with
    | zero => exact ⟨rfl, same⟩
    | succ l =>
      have mark := endX (byte '*') (by simp [starText, List.replicate_succ] at same; simp [same])
      exact absurd mark (by decide)
  | succ k ih =>
    cases l with
    | zero =>
      have mark := endY (byte '*') (by simp [starText, List.replicate_succ] at same; simp [← same])
      exact absurd mark (by decide)
    | succ l =>
      simp only [starText, List.replicate_succ, List.cons_append, List.cons.injEq, true_and] at same
      obtain ⟨rfl, rfl⟩ := ih same
      exact ⟨rfl, rfl⟩

theorem bare_pointers (count : Nat) (type : TypeExpr) : (pointers count type).bare = pointers count type.bare := by
  induction count generalizing type with
  | zero => rfl
  | succ count ih => rw [pointers, ih, bare, pointers]

theorem starText_succ (count : Nat) : starText (count + 1) = byte '*' :: starText count := rfl

theorem starText_add (k l : Nat) : starText (k + l) = starText k ++ starText l :=
  (List.replicate_append_replicate).symm

theorem write_base (separator : Text) (type : TypeExpr) :
    write separator type = write separator type.base ++ starText type.pointerDepth := by
  match type with
  | absent | named name loc | applied name args loc => simp [base, pointerDepth, starText]
  | pointer elem loc =>
    rw [write, write_base separator elem, base, pointerDepth, starText_add, List.append_assoc]
    rfl

theorem bare_base (count : Nat) (type : TypeExpr) :
    (pointers count type).bare = pointers (type.pointerDepth + count) type.base.bare := by
  match type with
  | absent | named name loc | applied name args loc => simp only [base, pointerDepth, Nat.zero_add, bare_pointers]
  | pointer elem loc =>
    have later := bare_base (count + 1) elem
    rw [pointers] at later
    rw [base, pointerDepth, Nat.add_right_comm, Nat.add_assoc, ← later, bare_pointers, bare_pointers]
    rfl

theorem Keyed.base {type : TypeExpr} (keyed : type.Keyed) : type.base.Keyed := by
  match type with
  | absent | named name loc | applied name args loc => exact keyed
  | pointer elem loc => exact @Keyed.base elem keyed

theorem base_notPointer (type elem : TypeExpr) (loc : Span) : type.base ≠ pointer elem loc := by
  match type with
  | absent | named name loc | applied name args loc => simp [TypeExpr.base]
  | pointer inner _ =>
    rw [TypeExpr.base]
    exact base_notPointer inner elem loc

theorem EndsKey.endsName {rest : Text} (ends : EndsKey rest) (stars : Nat) : EndsName (starText stars ++ rest) := by
  intro b first
  cases stars with
  | zero =>
    rcases ends b first with rfl | rfl | rfl <;> decide
  | succ stars =>
    rw [starText_succ, List.cons_append, List.head?_cons, Option.some.injEq] at first
    subst first
    decide

theorem EndsKey.notOpen {rest : Text} (ends : EndsKey rest) (stars : Nat) :
    (starText stars ++ rest).head? ≠ some (byte '<') := by
  intro first
  cases stars with
  | zero => exact absurd (ends _ first) (by decide)
  | succ stars =>
    rw [starText_succ, List.cons_append, List.head?_cons, Option.some.injEq] at first
    exact absurd first (by decide)

theorem Keyed.write_head {type : TypeExpr} (keyed : type.Keyed) (rest : Text) :
    ∃ b, (write "," type ++ rest).head? = some b ∧ isKeyMark b = false := by
  match type with
  | absent => exact keyed.elim
  | pointer elem loc =>
    rw [write, List.append_assoc]
    exact @Keyed.write_head elem keyed _
  | named [] loc => exact absurd rfl keyed.1
  | named (b :: name) loc => exact ⟨b, rfl, keyed.2 b (by simp)⟩
  | applied [] args loc => exact absurd rfl keyed.1.1
  | applied (b :: name) args loc => exact ⟨b, rfl, keyed.1.2 b (by simp)⟩

private theorem write_applied (name : Text) (args : List TypeExpr) (loc : Span) (rest : Text) :
    write "," (applied name args loc) ++ rest =
      name ++ (byte '<' :: (writeList "," args ++ byte '>' :: rest)) := by
  simp only [write, Text.concat, List.flatMap_cons, List.flatMap_nil, id_eq, List.append_nil, List.append_assoc]
  rfl

private theorem writeList_cons (first next : TypeExpr) (rest : List TypeExpr) (after : Text) :
    writeList "," (first :: next :: rest) ++ after =
      write "," first ++ (byte ',' :: (writeList "," (next :: rest) ++ after)) := by
  simp only [writeList, Text.concat, List.flatMap_cons, List.flatMap_nil, id_eq, List.append_nil, List.append_assoc]
  rfl

private theorem writeList_head {type : TypeExpr} {rest : List TypeExpr} (keyed : AllKeyed (type :: rest)) (after : Text) :
    ∃ b, (writeList "," (type :: rest) ++ after).head? = some b ∧ isKeyMark b = false := by
  cases rest with
  | nil => exact keyed.1.write_head after
  | cons next rest =>
    rw [writeList_cons]
    exact keyed.1.write_head _

private theorem Keyed.base_shape {type : TypeExpr} (keyed : type.Keyed) :
    (∃ name loc, type.base = named name loc ∧ KeyName name) ∨
      ∃ name args loc, type.base = applied name args loc ∧ KeyName name ∧ AllKeyed args := by
  have keyed := keyed.base
  generalize shape : type.base = base at keyed
  cases base with
  | absent => exact keyed.elim
  | pointer inner loc => exact absurd shape (base_notPointer type inner loc)
  | named name loc => exact .inl ⟨name, loc, rfl, keyed⟩
  | applied name args loc => exact .inr ⟨name, args, loc, rfl, keyed⟩

mutual
/-- Whatever follows, a key tells where its type ends and which type it is. -/
theorem key_unique (a : TypeExpr) {b : TypeExpr} {k l : Nat} {x y : Text} (keyedA : a.Keyed) (keyedB : b.Keyed)
    (endX : EndsKey x) (endY : EndsKey y)
    (same : write "," a ++ (starText k ++ x) = write "," b ++ (starText l ++ y)) :
    (pointers k a).bare = (pointers l b).bare ∧ x = y := by
  match a with
  | absent => exact keyedA.elim
  | pointer elem loc =>
    have shifted : write "," elem ++ (starText (k + 1) ++ x) = write "," b ++ (starText l ++ y) := by
      rw [write, List.append_assoc] at same
      exact same
    obtain ⟨found, rest⟩ := key_unique elem keyedA keyedB endX endY shifted
    refine ⟨?_, rest⟩
    rw [← found, pointers, bare_pointers, bare_pointers, bare, bare]
  | named name loc =>
    rw [write_base _ b, List.append_assoc, ← List.append_assoc (starText _), ← starText_add] at same
    rcases keyedB.base_shape with ⟨other, place, shape, keyedB⟩ | ⟨other, types, place, shape, keyedB⟩
    · rw [shape] at same
      obtain ⟨rfl, rest⟩ := name_unique keyedA.2 keyedB.2 (endX.endsName k) (endY.endsName _) same
      obtain ⟨rfl, rfl⟩ := stars_unique endX endY rest
      rw [bare_base l b, shape]
      exact ⟨bare_pointers _ _, rfl⟩
    · rw [shape, write_applied] at same
      obtain ⟨_, rest⟩ := name_unique keyedA.2 keyedB.1.2 (endX.endsName k) (by intro b first; cases first; decide) same
      exact absurd (congrArg List.head? rest) (endX.notOpen k)
  | applied name args loc =>
    rw [write_base _ b, List.append_assoc, ← List.append_assoc (starText _), ← starText_add] at same
    rcases keyedB.base_shape with ⟨other, place, shape, keyedB⟩ | ⟨other, types, place, shape, keyedB⟩
    · rw [shape, write_applied] at same
      obtain ⟨_, rest⟩ := name_unique keyedA.1.2 keyedB.2 (by intro b first; cases first; decide) (endY.endsName _) same
      exact absurd (congrArg List.head? rest.symm) (endY.notOpen _)
    · rw [shape, write_applied, write_applied] at same
      obtain ⟨rfl, rest⟩ := name_unique keyedA.1.2 keyedB.1.2 (by intro b first; cases first; decide)
        (by intro b first; cases first; decide) same
      obtain ⟨found, rest⟩ := keys_unique args keyedA.2 keyedB.2 (List.cons.inj rest).2
      obtain ⟨rfl, rfl⟩ := stars_unique endX endY rest
      exact ⟨by rw [bare_base l b, shape, bare_pointers, bare, bare, found], rfl⟩

theorem keys_unique (as : List TypeExpr) {bs : List TypeExpr} {x y : Text} (keyedA : AllKeyed as) (keyedB : AllKeyed bs)
    (same : writeList "," as ++ byte '>' :: x = writeList "," bs ++ byte '>' :: y) :
    bareAll as = bareAll bs ∧ x = y := by
  have closed (rest : Text) : EndsKey (byte '>' :: rest) := by
    intro b first
    cases first
    exact .inl rfl
  have separated (rest : Text) : EndsKey (byte ',' :: rest) := by
    intro b first
    cases first
    exact .inr (.inl rfl)
  match as, bs with
  | [], [] => exact ⟨rfl, (List.cons.inj same).2⟩
  | [], b :: bs =>
    obtain ⟨c, first, plain⟩ := writeList_head keyedB (byte '>' :: y)
    rw [← same] at first
    cases first
    exact absurd plain (by decide)
  | a :: as, [] =>
    obtain ⟨c, first, plain⟩ := writeList_head keyedA (byte '>' :: x)
    rw [same] at first
    cases first
    exact absurd plain (by decide)
  | [a], [b] =>
    obtain ⟨found, rest⟩ := key_unique a (k := 0) (l := 0) keyedA.1 keyedB.1 (closed x) (closed y) same
    exact ⟨congrArg (· :: []) found, (List.cons.inj rest).2⟩
  | [a], b :: next :: bs =>
    rw [writeList_cons] at same
    obtain ⟨_, rest⟩ := key_unique a (k := 0) (l := 0) keyedA.1 keyedB.1 (closed x) (separated _) same
    exact absurd (List.cons.inj rest).1 (by decide)
  | a :: next :: as, [b] =>
    rw [writeList_cons] at same
    obtain ⟨_, rest⟩ := key_unique a (k := 0) (l := 0) keyedA.1 keyedB.1 (separated _) (closed y) same
    exact absurd (List.cons.inj rest).1 (by decide)
  | a :: next :: as, b :: other :: bs =>
    rw [writeList_cons, writeList_cons] at same
    obtain ⟨found, rest⟩ := key_unique a (k := 0) (l := 0) keyedA.1 keyedB.1 (separated _) (separated _) same
    obtain ⟨later, rest⟩ := keys_unique (next :: as) keyedA.2 keyedB.2 (List.cons.inj rest).2
    refine ⟨?_, rest⟩
    rw [bareAll, later]
    exact congrArg (· :: _) found
end

theorem key_eq_iff {a b : TypeExpr} (keyedA : a.Keyed) (keyedB : b.Keyed) : a.key = b.key ↔ a.same b = true := by
  rw [same_iff_bare]
  constructor
  · intro same
    have ends : EndsKey [] := fun b first => by cases first
    have whole : write "," a ++ (starText 0 ++ []) = write "," b ++ (starText 0 ++ []) := by
      simpa [starText, key] using same
    exact (key_unique a (k := 0) (l := 0) keyedA keyedB ends ends whole).1
  · intro same
    rw [key, key, ← write_bare, same, write_bare]

private def laterKeys (types : List TypeExpr) : Text := (types.map key).flatMap (Text.ofString ";" ++ ·)

private theorem laterKeys_cons (type : TypeExpr) (rest : List TypeExpr) :
    laterKeys (type :: rest) = byte ';' :: (write "," type ++ laterKeys rest) := by
  simp only [laterKeys, List.map_cons, List.flatMap_cons, key, List.append_assoc]
  rfl

private theorem laterKeys_ends (types : List TypeExpr) : EndsKey (laterKeys types) := by
  intro b first
  cases types with
  | nil => cases first
  | cons type rest =>
    rw [laterKeys_cons] at first
    cases first
    exact .inr (.inr rfl)

private theorem laterKeys_unique (as : List TypeExpr) {bs : List TypeExpr} (keyedA : AllKeyed as) (keyedB : AllKeyed bs)
    (same : laterKeys as = laterKeys bs) : bareAll as = bareAll bs := by
  induction as generalizing bs with
  | nil =>
    cases bs with
    | nil => rfl
    | cons b bs =>
      rw [laterKeys_cons] at same
      cases same
  | cons a as ih =>
    cases bs with
    | nil =>
      rw [laterKeys_cons] at same
      cases same
    | cons b bs =>
      rw [laterKeys_cons, laterKeys_cons] at same
      obtain ⟨found, rest⟩ := key_unique a (k := 0) (l := 0) keyedA.1 keyedB.1 (laterKeys_ends as) (laterKeys_ends bs)
        (List.cons.inj same).2
      rw [bareAll, ih keyedA.2 keyedB.2 rest]
      exact congrArg (· :: _) found

private theorem listKey_cons (type : TypeExpr) (rest : List TypeExpr) :
    listKey (type :: rest) = write "," type ++ laterKeys rest := rfl

theorem listKey_eq_iff {as bs : List TypeExpr} (keyedA : AllKeyed as) (keyedB : AllKeyed bs) :
    listKey as = listKey bs ↔ sameLists as bs = true := by
  rw [sameLists_iff_bare]
  constructor
  · intro same
    match as, bs with
    | [], [] => rfl
    | [], b :: bs =>
      obtain ⟨c, first, _⟩ := keyedB.1.write_head (laterKeys bs)
      rw [← listKey_cons, ← same] at first
      cases first
    | a :: as, [] =>
      obtain ⟨c, first, _⟩ := keyedA.1.write_head (laterKeys as)
      rw [← listKey_cons, same] at first
      cases first
    | a :: as, b :: bs =>
      rw [listKey_cons, listKey_cons] at same
      obtain ⟨found, rest⟩ := key_unique a (k := 0) (l := 0) keyedA.1 keyedB.1 (laterKeys_ends as) (laterKeys_ends bs) same
      rw [bareAll, laterKeys_unique as keyedA.2 keyedB.2 rest]
      exact congrArg (· :: _) found
  · intro same
    rw [← listKey_bareAll, same, listKey_bareAll]

end TypeExpr
end GenericC
