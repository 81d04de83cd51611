import GenericC.Build.Outputs
import GenericC.Proofs.TextSplits

/-! Paths as lists of names. The path from the root to a file is determined by its normal names, and a path of a file
splits into a folder, a stem and an ending. -/

namespace GenericC

variable {folder ending : Text}

namespace Path

variable {parts : List Text} {current : Text}

structure IsName (name : Text) : Prop where
  some : name ≠ []
  free : slash ∉ name

structure LeadsDown (name : Text) : Prop extends IsName name where
  notHere : name ≠ Text.ofString "."
  notUp : name ≠ Text.ofString ".."

theorem names_append (front back : Text) : names (front ++ slash :: back) = names front ++ names back := by
  rw [names, Text.splitByte_mark_append, List.filter_append]
  rfl

theorem isName_of_mem {path name : Text} (member : name ∈ names path) : IsName name := by
  obtain ⟨part, some⟩ := List.mem_filter.mp member
  exact ⟨by simpa using some, Text.free_of_mem_splitByte part⟩

theorem IsName.names {name : Text} (isName : IsName name) : names name = [name] := by
  rw [Path.names, Text.splitByte_word isName.free]
  simpa using isName.some

theorem names_joinNames (all : ∀ name ∈ parts, IsName name) : names (joinNames parts) = parts := by
  induction parts with
  | nil => rfl
  | cons first rest ih =>
    obtain ⟨here, later⟩ := List.forall_mem_cons.mp all
    cases rest with
    | nil =>
      rw [joinNames, Text.joinWith, List.flatMap_nil, List.append_nil]
      exact here.names
    | cons next rest =>
      have joined : joinNames (first :: next :: rest) = first ++ slash :: joinNames (next :: rest) := rfl
      rw [joined, names_append, here.names, ih later]
      rfl

section
variable {rooted : Bool} {kept : List Text} {name : Text}

theorem addName_here : addName rooted kept (Text.ofString ".") = kept := if_pos rfl

theorem addName_down (notHere : name ≠ Text.ofString ".") (notUp : name ≠ Text.ofString "..") :
    addName rooted kept name = name :: kept := by
  unfold addName
  rw [if_neg notHere, if_neg notUp]

theorem addName_up {last : Text} (notUp : last ≠ Text.ofString "..") :
    addName rooted (last :: kept) (Text.ofString "..") = kept := by
  unfold addName
  rw [if_neg (by decide), if_pos rfl]
  exact if_neg notUp

theorem addName_all (isName : IsName name) (all : ∀ other ∈ kept, LeadsDown other) :
    ∀ other ∈ addName true kept name, LeadsDown other := by
  unfold addName
  split
  · exact all
  · split
    next up =>
      cases kept with
      | nil => simp
      | cons last rest =>
        dsimp only
        rw [if_neg (all last List.mem_cons_self).notUp]
        exact fun other member => all other (List.mem_cons_of_mem _ member)
    next notUp =>
      rename_i notHere
      exact List.forall_mem_cons.mpr ⟨⟨isName, notHere, notUp⟩, all⟩

theorem foldl_addName_all (names : ∀ name ∈ parts, IsName name) (all : ∀ other ∈ kept, LeadsDown other) :
    ∀ other ∈ parts.foldl (addName true) kept, LeadsDown other := by
  induction parts generalizing kept with
  | nil => exact all
  | cons first rest ih =>
    obtain ⟨here, later⟩ := List.forall_mem_cons.mp names
    exact ih later (addName_all here all)

theorem foldl_addName_down (all : ∀ name ∈ parts, LeadsDown name) :
    parts.foldl (addName rooted) kept = parts.reverse ++ kept := by
  induction parts generalizing kept with
  | nil => rfl
  | cons first rest ih =>
    obtain ⟨here, later⟩ := List.forall_mem_cons.mp all
    rw [List.foldl_cons, addName_down here.notHere here.notUp, ih later, List.reverse_cons, List.append_assoc]
    rfl

theorem mem_of_mem_foldl (member : name ∈ parts.foldl (addName rooted) []) : name ∈ parts := by
  have step (kept : List Text) (next : Text) : ∀ other ∈ addName rooted kept next, other ∈ kept ∨ other = next := by
    intro other
    unfold addName
    grind
  induction parts using List.reverseRecOn with
  | nil => cases member
  | append_singleton parts next ih =>
    rw [List.foldl_append] at member
    rcases step _ _ name member with early | rfl
    · exact List.mem_append_left _ (ih early)
    · exact List.mem_append_right _ (List.mem_singleton_self _)

theorem foldl_addName_normal (parts kept : List Text) :
    ((parts.foldl (addName false) []).reverse).foldl (addName true) kept = parts.foldl (addName true) kept ∧
      Text.ofString "." ∉ parts.foldl (addName false) [] := by
  induction parts using List.reverseRecOn with
  | nil => exact ⟨rfl, List.not_mem_nil⟩
  | append_singleton parts name ih =>
    obtain ⟨same, noDot⟩ := ih
    rw [List.foldl_append, List.foldl_append, ← same]
    generalize parts.foldl (addName false) [] = normal at noDot
    simp only [List.foldl_cons, List.foldl_nil]
    by_cases dot : name = Text.ofString "."
    · rw [dot, addName_here, addName_here]
      exact ⟨rfl, noDot⟩
    · by_cases up : name = Text.ofString ".."
      · subst up
        cases normal with
        | nil => exact ⟨rfl, by decide⟩
        | cons last rest =>
          by_cases stays : last = Text.ofString ".."
          · subst stays
            refine ⟨?_, fun member => (List.mem_cons.mp member).elim (by decide) noDot⟩
            exact (congrArg (List.foldl (addName true) kept) (List.reverse_cons ..)).trans List.foldl_append
          · have notHere : last ≠ Text.ofString "." := fun here => noDot (here ▸ List.mem_cons_self)
            rw [addName_up stays, List.reverse_cons, List.foldl_append]
            refine ⟨?_, fun member => noDot (List.mem_cons_of_mem _ member)⟩
            rw [List.foldl_cons, List.foldl_nil, addName_down notHere stays, addName_up stays]
      · rw [addName_down dot up, List.reverse_cons, List.foldl_append]
        exact ⟨rfl, fun member => (List.mem_cons.mp member).elim (dot ·.symm) noDot⟩

end

/-- The names that lead from the root to where a path leads from a folder, last first. -/
def route (current path : Text) : List Text :=
  (if isAbsolute path then names path else names current ++ names path).foldl (addName true) []

theorem route_leadsDown (current path : Text) : ∀ name ∈ route current path, LeadsDown name := by
  refine foldl_addName_all (fun name member => ?_) (by simp)
  split at member
  · exact isName_of_mem member
  · exact (List.mem_append.mp member).elim isName_of_mem isName_of_mem

theorem absolute_eq (rooted : isAbsolute current = true) (path : Text) :
    absolute current path = slash :: joinNames (route current path).reverse := by
  unfold absolute route
  by_cases here : isAbsolute path = true
  · rw [if_pos here, if_pos here, clean, if_pos here, here]
    rfl
  · have some : current.isEmpty = false := by
      cases current with
      | nil => cases rooted
      | cons b rest => rfl
    rw [if_neg here, if_neg here, join, if_neg (by simp [some])]
    split
    next none =>
      rw [List.isEmpty_iff.mp none, clean, if_pos rooted, rooted]
      simp [normalNames, names, Text.splitByte]
    next more =>
      have rooted : isAbsolute (current ++ slash :: path) = true := by
        cases current with
        | nil => cases some
        | cons b rest => exact rooted
      rw [clean, if_pos rooted, rooted, normalNames, names_append]

theorem names_absolute (rooted : isAbsolute current = true) (path : Text) :
    names (absolute current path) = (route current path).reverse := by
  have all : ∀ name ∈ (route current path).reverse, IsName name := fun name member =>
    (route_leadsDown current path name (List.mem_reverse.mp member)).toIsName
  have front : names (slash :: joinNames (route current path).reverse) =
      names [] ++ names (joinNames (route current path).reverse) := names_append [] _
  rw [absolute_eq rooted, front, names_joinNames all]
  rfl

theorem isAbsolute_absolute (rooted : isAbsolute current = true) (path : Text) :
    isAbsolute (absolute current path) = true := by
  rw [absolute_eq rooted]
  rfl

theorem absolute_inj {first second : Text} (rooted : isAbsolute current = true) :
    absolute current first = absolute current second ↔ route current first = route current second := by
  constructor
  · intro same
    have names := congrArg names same
    rwa [names_absolute rooted, names_absolute rooted, List.reverse_inj] at names
  · intro same
    rw [absolute_eq rooted, absolute_eq rooted, same]

theorem clean_absolute (rooted : isAbsolute current = true) (path : Text) :
    clean (absolute current path) = absolute current path := by
  have all : ∀ name ∈ (route current path).reverse, LeadsDown name := fun name member =>
    route_leadsDown current path name (List.mem_reverse.mp member)
  rw [clean, if_pos (isAbsolute_absolute rooted path), isAbsolute_absolute rooted path, normalNames,
    names_absolute rooted, foldl_addName_down all, absolute_eq rooted]
  simp

theorem isAbsolute_joinNames (all : ∀ name ∈ parts, IsName name) : isAbsolute (joinNames parts) = false := by
  cases parts with
  | nil => rfl
  | cons first rest =>
    have here := all first List.mem_cons_self
    cases first with
    | nil => exact absurd rfl here.some
    | cons b first =>
      have other : b ≠ slash := fun same => here.free (same ▸ List.mem_cons_self)
      simpa [isAbsolute, joinNames, Text.joinWith] using other

theorem normalNames_leadsDown (path : Text) : ∀ name ∈ normalNames true path, LeadsDown name := fun name member =>
  foldl_addName_all (fun _ => isName_of_mem) (by simp) name (List.mem_reverse.mp member)

theorem names_clean {path : Text} (rooted : isAbsolute path = true) : names (clean path) = normalNames true path := by
  have front : names (slash :: joinNames (normalNames true path)) = names [] ++ names (joinNames (normalNames true path)) :=
    names_append [] _
  rw [clean, rooted, if_pos rfl, front, names_joinNames fun name member => (normalNames_leadsDown path name member).toIsName]
  rfl

theorem route_clean (current path : Text) : route current (clean path) = route current path := by
  unfold route
  by_cases here : isAbsolute path = true
  · have rooted : isAbsolute (clean path) = true := by
      rw [clean, here]
      rfl
    rw [if_pos here, if_pos rooted, names_clean here, foldl_addName_down (normalNames_leadsDown path), List.append_nil,
      normalNames, List.reverse_reverse]
  · have named : ∀ name ∈ normalNames false path, IsName name := fun name member =>
      isName_of_mem (mem_of_mem_foldl (List.mem_reverse.mp member))
    have normal (kept : List Text) := (foldl_addName_normal (names path) kept).1
    unfold clean
    simp only [here, if_false, Bool.false_eq_true]
    rw [List.foldl_append, ← normal]
    split
    next none =>
      have none : (List.foldl (addName false) [] (names path)).reverse = [] := List.isEmpty_iff.mp none
      have alone : names (Text.ofString ".") = [Text.ofString "."] := by decide
      rw [none, if_neg (by decide), alone, List.foldl_append, List.foldl_cons, addName_here]
    · rw [isAbsolute_joinNames named, if_neg (by decide), names_joinNames named, List.foldl_append]
      rfl

theorem route_join (current : Text) {first second : Text} (someFirst : first ≠ []) (someSecond : second ≠ []) :
    route current (join first second) = (names second).foldl (addName true) (route current first) := by
  have rooted : isAbsolute (first ++ slash :: second) = isAbsolute first := by
    cases first with
    | nil => exact absurd rfl someFirst
    | cons b rest => rfl
  rw [join, if_neg (by simpa using someFirst), if_neg (by simpa using someSecond), route_clean]
  unfold route
  rw [rooted, names_append]
  split
  · rw [List.foldl_append]
  · rw [← List.append_assoc, List.foldl_append]

/-- The front of a path up to and with its last slash. -/
def IsFolder (folder : Text) : Prop := folder = [] ∨ ∃ start, folder = start ++ [slash]

theorem names_file {name : Text} (isFolder : IsFolder folder) (isName : IsName name) :
    names (folder ++ name) = names folder ++ [name] := by
  rcases isFolder with rfl | ⟨start, rfl⟩
  · exact isName.names
  · rw [List.append_assoc, List.singleton_append, names_append, names_append, isName.names, List.append_assoc]
    rfl

theorem route_file (current : Text) {name : Text} (isFolder : IsFolder folder) (down : LeadsDown name) :
    route current (folder ++ name) = name :: route current folder := by
  have rooted : isAbsolute (folder ++ name) = isAbsolute folder := by
    rcases isFolder with rfl | ⟨start, rfl⟩
    · have relative := isAbsolute_joinNames (List.forall_mem_singleton.mpr down.toIsName)
      rwa [joinNames, Text.joinWith, List.flatMap_nil, List.append_nil] at relative
    · cases start <;> rfl
  unfold route
  rw [names_file isFolder down.toIsName, rooted]
  split
  · rw [List.foldl_append]
    exact addName_down down.notHere down.notUp
  · rw [← List.append_assoc, List.foldl_append]
    exact addName_down down.notHere down.notUp

def dot : UInt8 := Text.byte '.'

/-- What can be the suffix of a file: a dot, and more without a dot. -/
structure IsEnding (ending : Text) : Prop where
  shape : ∃ tail, ending = dot :: tail ∧ tail ≠ [] ∧ dot ∉ tail
  free : slash ∉ ending

theorem IsEnding.leadsDown {stem : Text} (isEnding : IsEnding ending) (free : slash ∉ stem) :
    LeadsDown (stem ++ ending) := by
  obtain ⟨tail, rfl, some, noDot⟩ := isEnding.shape
  have dots (other : Text) (all : ∀ b ∈ other, b = dot) : stem ++ dot :: tail ≠ other := by
    rintro rfl
    obtain ⟨b, rest, rfl⟩ := List.exists_cons_of_ne_nil some
    have here := all b (by simp)
    exact noDot (here ▸ List.mem_cons_self)
  have here : ∀ b ∈ Text.ofString ".", b = dot := List.forall_mem_singleton.mpr rfl
  have up : ∀ b ∈ Text.ofString "..", b = dot := List.forall_mem_cons.mpr ⟨rfl, here⟩
  refine ⟨⟨by simp, ?_⟩, dots _ here, dots _ up⟩
  rw [List.mem_append, not_or]
  exact ⟨free, isEnding.free⟩

theorem suffix_file {stem : Text} (isFolder : IsFolder folder) (isEnding : IsEnding ending) (free : slash ∉ stem) :
    suffix (folder ++ (stem ++ ending)) = ending := by
  obtain ⟨tail, rfl, some, noDot⟩ := isEnding.shape
  have last : (folder ++ (stem ++ dot :: tail)).drop ((folder ++ (stem ++ dot :: tail)).afterLast (· = slash)) =
      stem ++ dot :: tail := by
    have outside : ∀ b ∈ stem ++ dot :: tail, decide (b = slash) = false := by
      intro b member
      refine decide_eq_false ?_
      rintro rfl
      exact (List.mem_append.mp member).elim free isEnding.free
    rw [Text.afterLast_append folder outside]
    rcases isFolder with rfl | ⟨start, rfl⟩
    · rfl
    · rw [Text.afterLast_concat start (by simp), ← List.length_singleton, ← List.length_append, List.drop_left]
  have after : (stem ++ dot :: tail).afterLast (· = Text.byte '.') = stem.length + 1 := by
    have outside : ∀ b ∈ tail, decide (b = Text.byte '.') = false := by
      intro b member
      refine decide_eq_false ?_
      rintro rfl
      exact noDot member
    rw [← List.singleton_append, ← List.append_assoc, Text.afterLast_append _ outside]
    exact Text.afterLast_concat stem (decide_eq_true rfl)
  unfold suffix
  rw [last]
  simp only [after, List.drop_left]

theorem exists_of_suffix {path : Text} (found : suffix path = ending) (some : ending ≠ [])
    (notDot : ending ≠ Text.ofString ".") :
    IsEnding ending ∧ ∃ folder stem, path = folder ++ (stem ++ ending) ∧ IsFolder folder ∧ slash ∉ stem := by
  obtain ⟨folder, name, rfl, after, outside, isFolder⟩ := Text.exists_afterLast (· = slash) path
  have isFolder : IsFolder folder := by
    rcases isFolder with none | ⟨start, b, rfl, here⟩
    · exact .inl none
    · exact .inr ⟨start, by simpa using here⟩
  have free : slash ∉ name := fun inside => by simpa using outside slash inside
  unfold suffix at found
  rw [after, List.drop_left] at found
  dsimp only at found
  obtain ⟨front, tail, rfl, afterDot, noDot, shape⟩ := Text.exists_afterLast (· = Text.byte '.') name
  rw [afterDot] at found
  rcases shape with rfl | ⟨stem, b, rfl, here⟩
  · exact absurd found.symm some
  · have here : b = dot := of_decide_eq_true here
    subst here
    have ending : ending = dot :: tail := by
      rw [← found, List.length_append, List.length_singleton, List.append_assoc]
      simp
    subst ending
    rw [List.mem_append, List.mem_append, not_or, not_or] at free
    refine ⟨⟨⟨tail, rfl, ?_, ?_⟩, ?_⟩, folder, stem, by simp, isFolder, free.1.1⟩
    · rintro rfl
      exact notDot rfl
    · exact fun inside => of_decide_eq_false (noDot _ inside) rfl
    · rw [List.mem_cons, not_or]
      exact ⟨by decide, free.2⟩

end Path

theorem replaceSuffix_file {stem : Text} (isFolder : Path.IsFolder folder) (isEnding : Path.IsEnding ending)
    (free : Path.slash ∉ stem) (other : Text) :
    replaceSuffix (folder ++ (stem ++ ending)) other = folder ++ (stem ++ other) := by
  rw [replaceSuffix, Path.suffix_file isFolder isEnding free, ← List.append_assoc, Text.dropEnd_append, List.append_assoc]

theorem companionPath_file (folder stem ending : Text) :
    companionPath (folder ++ (stem ++ Text.ofString ".c")) ending = folder ++ (stem ++ ending) := by
  rw [companionPath, ← List.append_assoc, Text.dropEnd_append, List.append_assoc]

end GenericC
