import GenericC.Proofs.PathNames

/-! The path that is chosen for the C file of a source: beside the source, or in the output folder at the place that the
source has in the base folder. -/

namespace GenericC

namespace Path

theorem commonRest_spec (first second : List Text) :
    ∃ common, first = common ++ (commonRest first second).1 ∧ second = common ++ (commonRest first second).2 := by
  fun_induction commonRest first second with
  | case1 as b bs ih =>
    obtain ⟨common, left, right⟩ := ih
    exact ⟨b :: common, congrArg (b :: ·) left, congrArg (b :: ·) right⟩
  | case2 a as b bs different | case3 as bs _ => exact ⟨[], rfl, rfl⟩

def folderOf (parts : List Text) : Text := parts.flatMap (· ++ [slash])

theorem isFolder_folderOf (parts : List Text) : IsFolder (folderOf parts) := by
  induction parts using List.reverseRecOn with
  | nil => exact .inl rfl
  | append_singleton parts last _ => exact .inr ⟨folderOf parts ++ last, by simp [folderOf]⟩

theorem joinNames_concat (parts : List Text) (name : Text) : joinNames (parts ++ [name]) = folderOf parts ++ name := by
  induction parts with
  | nil => simp [joinNames, Text.joinWith, folderOf]
  | cons first rest ih =>
    cases rest with
    | nil => simp [joinNames, Text.joinWith, folderOf]
    | cons next rest =>
      have joined : joinNames (first :: next :: rest ++ [name]) = first ++ slash :: joinNames (next :: rest ++ [name]) := rfl
      rw [joined, ih]
      simp [folderOf]

theorem names_folderOf_append {parts : List Text} {name : Text} (all : ∀ part ∈ parts, IsName part) (isName : IsName name) :
    names (folderOf parts ++ name) = parts ++ [name] := by
  rw [← joinNames_concat, names_joinNames]
  exact List.forall_mem_append.mpr ⟨all, List.forall_mem_singleton.mpr isName⟩

theorem wayBelow?_spec {current folder path way : Text} (rooted : isAbsolute current = true)
    (found : wayBelow? current folder path = some way) (notHere : way ≠ Text.ofString ".") :
    ∃ down, down ≠ [] ∧ route current path = down ++ route current folder ∧ way = joinNames down.reverse := by
  obtain ⟨found, below⟩ := Option.filter_eq_some_iff.mp found
  unfold relative? at found
  simp only [clean_absolute rooted, isAbsolute_absolute rooted, bne_self_eq_false, Bool.false_eq_true, if_false,
    names_absolute rooted] at found
  split at found
  · exact absurd (Option.some.inj found).symm notHere
  next different =>
    have start : absolute current folder ≠ Text.ofString "." := by
      intro same
      have absolute := isAbsolute_absolute rooted folder
      rw [same] at absolute
      exact absurd absolute (by decide)
    rw [if_neg start] at found
    obtain ⟨common, left, right⟩ := commonRest_spec (route current folder).reverse (route current path).reverse
    generalize commonRest (route current folder).reverse (route current path).reverse = rest at found left right
    obtain ⟨up, down⟩ := rest
    dsimp only at found left right
    split at found
    · cases found
    · have way := (Option.some.inj found).symm
      cases up with
      | cons first more =>
        subst way
        exact absurd below (by simp [joinNames, Text.joinWith, Text.startsWith])
      | nil =>
        rw [List.append_nil] at left
        have route : route current path = down.reverse ++ route current folder := by
          rw [← List.reverse_inj, right, ← left]
          simp
        refine ⟨down.reverse, ?_, route, by simpa using way⟩
        intro none
        refine different ((absolute_inj rooted).mpr ?_)
        rw [route, none, List.nil_append]

theorem clean_ne_nil (path : Text) : clean path ≠ [] := by
  rw [clean]
  split
  · exact List.cons_ne_nil _ _
  · split
    · decide
    next some =>
      intro none
      have named : ∀ name ∈ normalNames (isAbsolute path) path, IsName name :=
        fun name member => isName_of_mem (mem_of_mem_foldl (List.mem_reverse.mp member))
      have parts := names_joinNames named
      rw [none] at parts
      exact some (by rw [← parts]; rfl)

theorem join_ne_nil {first second : Text} (someFirst : ¬ first.isEmpty = true) (someSecond : second ≠ []) :
    join first second ≠ [] := by
  rw [join, if_neg someFirst, if_neg (by simpa using someSecond)]
  exact clean_ne_nil _

theorem join_file {first folder name : Text} (some : first ≠ []) (down : LeadsDown name) (isFolder : IsFolder folder) :
    ∃ target, IsFolder target ∧ join first (folder ++ name) = target ++ name := by
  have more : folder ++ name ≠ [] := by simp [down.some]
  rw [join, if_neg (by simpa using some), if_neg (by simpa using more), clean]
  generalize isAbsolute (first ++ slash :: (folder ++ name)) = rooted
  have normal : normalNames rooted (first ++ slash :: (folder ++ name)) =
      ((names first ++ names folder).foldl (addName rooted) []).reverse ++ [name] := by
    rw [normalNames, names_append, names_file isFolder down.toIsName, ← List.append_assoc, List.foldl_append,
      List.foldl_cons, List.foldl_nil, addName_down down.notHere down.notUp, List.reverse_cons]
  rw [normal, joinNames_concat]
  generalize ((names first ++ names folder).foldl (addName rooted) []).reverse = parts
  cases rooted with
  | true =>
    refine ⟨slash :: folderOf parts, .inr ?_, rfl⟩
    rcases isFolder_folderOf parts with none | ⟨start, ends⟩
    · exact ⟨[], by rw [none]; rfl⟩
    · exact ⟨slash :: start, by rw [ends]; rfl⟩
  | false => exact ⟨folderOf parts, isFolder_folderOf parts, by simp⟩

end Path

namespace OutputPlan

open GenericC.Path

/-- The names that lead to the folders between which a tree is mirrored, last first; outputs beside their sources are
mirrored from the root to the root. -/
def mirror (plan : OutputPlan) : List Text × List Text :=
  if plan.outputDir = [] then ([], []) else (route plan.workingDir plan.baseDir, route plan.workingDir plan.outputDir)

/-- A C file has the stem of its source, in a folder that mirrors that of the source. -/
structure Mirrors (plan : OutputPlan) (ending source output : Text) : Prop where
  split : ∃ folder target stem down, source = folder ++ (stem ++ ending) ∧ output = target ++ (stem ++ Text.ofString ".c") ∧
    IsFolder folder ∧ IsFolder target ∧ slash ∉ stem ∧ route plan.workingDir folder = down ++ plan.mirror.1 ∧
    route plan.workingDir target = down ++ plan.mirror.2

theorem isEnding_c : IsEnding (Text.ofString ".c") := ⟨⟨[Text.byte 'c'], rfl, by decide, by decide⟩, by decide⟩

variable {plan : OutputPlan} {ending source output : Text}

/-- Without a given path the C file lies beside the source or in the output folder, and is not the source. -/
theorem outputFor_eq_ok (noPath : plan.outputPath = []) (chosen : plan.outputFor source = .ok output) :
    (output = if plan.outputDir.isEmpty then replaceSuffix source ".c" else join plan.outputDir (plan.mirroredName source)) ∧
      absolute plan.workingDir output ≠ absolute plan.workingDir source := by
  unfold outputFor at chosen
  rw [if_neg (by simp [noPath])] at chosen
  dsimp only at chosen
  generalize (if plan.outputDir.isEmpty then replaceSuffix source (Text.ofString ".c")
    else join plan.outputDir (plan.mirroredName source)) = candidate at chosen ⊢
  split at chosen
  · cases chosen
  next other =>
    cases chosen
    exact ⟨rfl, other⟩

/-- Every source below the base folder has its C file at the same place below the output folder; without an output folder
it lies beside the source. -/
theorem mirrors_of_outputFor (rooted : isAbsolute plan.workingDir = true) (noPath : plan.outputPath = [])
    (found : suffix source = ending) (nonempty : ending ≠ []) (notDot : ending ≠ Text.ofString ".")
    (below : plan.outputDir ≠ [] → plan.baseDir ≠ [] ∧ ∃ way, wayBelow? plan.workingDir plan.baseDir source = some way ∧
      way ≠ Text.ofString ".")
    (chosen : plan.outputFor source = .ok output) : plan.Mirrors ending source output := by
  obtain ⟨isEnding, folder, stem, rfl, isFolder, free⟩ := exists_of_suffix found nonempty notDot
  obtain ⟨chosen, -⟩ := outputFor_eq_ok noPath chosen
  by_cases beside : plan.outputDir = []
  · rw [beside, List.isEmpty_nil, if_pos rfl, replaceSuffix_file isFolder isEnding free] at chosen
    refine ⟨folder, folder, stem, route plan.workingDir folder, rfl, chosen, isFolder, isFolder, free, ?_, ?_⟩
    · rw [mirror, if_pos beside, List.append_nil]
    · rw [mirror, if_pos beside, List.append_nil]
  · obtain ⟨base, way, known, notHere⟩ := below beside
    rw [if_neg (by simpa using beside), mirroredName, if_neg (by simpa using base), known, Option.getD_some] at chosen
    obtain ⟨down, some, route_source, rfl⟩ := wayBelow?_spec rooted known notHere
    rw [route_file _ isFolder (isEnding.leadsDown free)] at route_source
    obtain ⟨name, inside, rfl⟩ := List.exists_cons_of_ne_nil some
    rw [List.cons_append] at route_source
    obtain ⟨rfl, route_folder⟩ := List.cons.inj route_source
    have downwards : ∀ part ∈ inside.reverse, LeadsDown part := by
      intro part member
      refine route_leadsDown plan.workingDir folder part ?_
      rw [route_folder]
      exact List.mem_append_left _ (List.mem_reverse.mp member)
    have renamed := isEnding_c.leadsDown free
    rw [List.reverse_cons, joinNames_concat, replaceSuffix_file (isFolder_folderOf _) isEnding free] at chosen
    obtain ⟨target, isTarget, joined⟩ := join_file beside renamed (isFolder_folderOf inside.reverse)
    refine ⟨folder, target, stem, inside, rfl, chosen.trans joined, isFolder, isTarget, free, ?_, ?_⟩
    · rw [mirror, if_neg beside, route_folder]
    · have places := congrArg (route plan.workingDir) joined
      rw [route_join _ beside (List.append_ne_nil_of_right_ne_nil _ renamed.some), route_file _ isTarget renamed,
        names_folderOf_append (fun part member => (downwards part member).toIsName) renamed.toIsName,
        foldl_addName_down (List.forall_mem_append.mpr ⟨downwards, List.forall_mem_singleton.mpr renamed⟩)] at places
      rw [mirror, if_neg beside]
      simpa using places.symm

theorem output_ne_nil (chosen : plan.outputFor source = .ok output) : output ≠ [] := by
  have named (path : Text) : replaceSuffix path ".c" ≠ [] := List.append_ne_nil_of_right_ne_nil _ (by decide)
  by_cases noPath : plan.outputPath = []
  · obtain ⟨rfl, -⟩ := outputFor_eq_ok noPath chosen
    split
    · exact named _
    · exact join_ne_nil (by assumption) (named _)
  · rw [outputFor, if_pos (by simpa using noPath)] at chosen
    cases chosen
    exact noPath

def endings : List Text := [Text.ofString ".c", Text.ofString ".h", Text.ofString ".insts"]

theorem isEnding_of_mem {other : Text} (member : other ∈ endings) : IsEnding other := by
  simp only [endings, List.mem_cons, List.not_mem_nil, or_false] at member
  rcases member with rfl | rfl | rfl
  · exact isEnding_c
  · exact ⟨⟨[Text.byte 'h'], rfl, by decide, by decide⟩, by decide⟩
  · exact ⟨⟨Text.ofString "insts", rfl, by decide, by decide⟩, by decide⟩

end OutputPlan

namespace Path

/-- Files with different endings are different, and of those with the same ending only the same one lies at one place. -/
theorem same_file {current folder folder' stem stem' ending ending' : Text} (isFolder : IsFolder folder)
    (isFolder' : IsFolder folder') (isEnding : IsEnding ending) (isEnding' : IsEnding ending') (free : slash ∉ stem)
    (free' : slash ∉ stem')
    (same : route current (folder ++ (stem ++ ending)) = route current (folder' ++ (stem' ++ ending'))) :
    ending = ending' ∧ stem = stem' ∧ route current folder = route current folder' := by
  rw [route_file _ isFolder (isEnding.leadsDown free), route_file _ isFolder' (isEnding'.leadsDown free')] at same
  obtain ⟨name, above⟩ := List.cons.inj same
  have suffixes := congrArg suffix name
  have here := suffix_file (.inl rfl) isEnding free
  have there := suffix_file (.inl rfl) isEnding' free'
  rw [List.nil_append] at here there
  rw [here, there] at suffixes
  subst suffixes
  exact ⟨rfl, List.append_cancel_right name, above⟩

end Path

end GenericC
