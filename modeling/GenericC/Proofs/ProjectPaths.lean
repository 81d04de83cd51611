import GenericC.Manifest
import GenericC.Proofs.PathNames

/-! The paths that a manifest lists lead into its project. A path is checked once and taken up later, and both times
its blanks and its dots are dealt with anew; what holds the two together are the names that the path comes down to. -/

namespace GenericC

namespace Path

/-- The path leads to the folder itself or to a place below it, without a way up. -/
structure Inside (folder path : Text) : Prop where
  rooted : isAbsolute path = true
  normal : clean path = path
  below : names folder <+: names path
  noWayUp : Text.ofString ".." ∉ names path

/-- Ways up stand in front of all other names: with one of them among the names, the first name is one. -/
def UpsLead (kept : List Text) : Prop := Text.ofString ".." ∈ kept → kept.getLast? = some (Text.ofString "..")

theorem UpsLead.addName {kept : List Text} (lead : UpsLead kept) (name : Text) : UpsLead (addName false kept name) := by
  unfold Path.addName
  by_cases here : name = Text.ofString "."
  · rwa [if_pos here]
  · rw [if_neg here]
    by_cases up : name = Text.ofString ".."
    · rw [if_pos up]
      cases kept with
      | nil => intro _; rw [up]; rfl
      | cons last rest =>
        by_cases stays : last = Text.ofString ".."
        · intro _
          simp only [if_pos stays, List.getLast?_cons_cons]
          exact lead (stays ▸ List.mem_cons_self)
        · intro member
          simp only [if_neg stays] at member ⊢
          have first := lead (List.mem_cons_of_mem _ member)
          obtain ⟨next, rest, rfl⟩ := List.exists_cons_of_ne_nil (List.ne_nil_of_mem member)
          rwa [List.getLast?_cons_cons] at first
    · rw [if_neg up]
      intro member
      have early : Text.ofString ".." ∈ kept := (List.mem_cons.mp member).resolve_left (up ·.symm)
      obtain ⟨next, rest, rfl⟩ := List.exists_cons_of_ne_nil (List.ne_nil_of_mem early)
      rw [List.getLast?_cons_cons]
      exact lead early

theorem upsLead_foldl (parts : List Text) : UpsLead (parts.foldl (addName false) []) := by
  induction parts using List.reverseRecOn with
  | nil => intro member; cases member
  | append_singleton parts name ih =>
    rw [List.foldl_append]
    exact ih.addName name

theorem normalNames_down {path : Text} (stays : (normalNames false path).head? ≠ some (Text.ofString "..")) :
    ∀ name ∈ normalNames false path, LeadsDown name := by
  intro name member
  rw [normalNames, List.head?_reverse] at stays
  replace member := List.mem_reverse.mp member
  refine ⟨isName_of_mem (mem_of_mem_foldl member), ?_, ?_⟩
  · rintro rfl
    exact (foldl_addName_normal (names path) []).2 member
  · rintro rfl
    exact stays (upsLead_foldl _ member)

theorem isAbsolute_clean (path : Text) : isAbsolute (clean path) = isAbsolute path := by
  unfold clean
  by_cases rooted : isAbsolute path = true
  · rw [if_pos rooted, rooted]
    rfl
  · rw [if_neg rooted, Bool.eq_false_iff.mpr rooted]
    split
    · rfl
    · apply isAbsolute_joinNames
      intro name member
      exact isName_of_mem (mem_of_mem_foldl (List.mem_reverse.mp member))

section
variable {folder : Text} (rooted : isAbsolute folder = true) (normal : clean folder = folder)
include rooted normal

theorem leadsDown_of_clean : ∀ name ∈ names folder, LeadsDown name := by
  rw [← normal, names_clean rooted]
  exact normalNames_leadsDown folder

theorem Inside.self : Inside folder folder :=
  ⟨rooted, normal, List.prefix_rfl, fun member => (leadsDown_of_clean rooted normal _ member).notUp rfl⟩

theorem names_absolute_down {path : Text} (relative : isAbsolute path = false)
    (down : ∀ name ∈ normalNames false path, LeadsDown name) :
    names (absolute folder path) = names folder ++ normalNames false path := by
  rw [names_absolute rooted, route, relative, if_neg Bool.false_ne_true, List.foldl_append,
    foldl_addName_down (leadsDown_of_clean rooted normal), ← (foldl_addName_normal (names path) _).1]
  change ((normalNames false path).foldl (addName true) _).reverse = _
  rw [foldl_addName_down down]
  simp

theorem inside_absolute {path : Text} (relative : isAbsolute path = false)
    (stays : (normalNames false path).head? ≠ some (Text.ofString "..")) : Inside folder (absolute folder path) := by
  have down := normalNames_down stays
  have along := names_absolute_down rooted normal relative down
  refine ⟨isAbsolute_absolute rooted path, clean_absolute rooted path, ⟨_, along.symm⟩, ?_⟩
  intro member
  rw [along] at member
  rcases List.mem_append.mp member with above | below
  · exact (leadsDown_of_clean rooted normal _ above).notUp rfl
  · exact (down _ below).notUp rfl

end
end Path

namespace ManifestConfig

theorem checkInside_ok {key path : Text} (passed : checkInside key path = .ok ()) :
    Path.isAbsolute path.trim = false ∧ (Path.normalNames false path.trim).head? ≠ some (Text.ofString "..") := by
  unfold checkInside at passed
  dsimp only at passed
  split at passed
  · cases passed
  · split at passed
    · cases passed
    next relative =>
      split at passed
      · cases passed
      next stays => exact ⟨Bool.eq_false_iff.mpr relative, stays⟩

theorem bind_ok {first : Except ConfigFault Unit} {next : Unit → Except ConfigFault Unit}
    (passed : (first >>= next) = .ok ()) : first = .ok () ∧ next () = .ok () := by
  cases first with
  | error fault => cases passed
  | ok _ => exact ⟨rfl, passed⟩

theorem forM_ok {check : Text → Except ConfigFault Unit} {paths : List Text} (passed : paths.forM check = .ok ()) :
    ∀ path ∈ paths, check path = .ok () := by
  induction paths with
  | nil => intro path member; cases member
  | cons first rest ih =>
    obtain ⟨here, later⟩ := bind_ok passed
    exact List.forall_mem_cons.mpr ⟨here, ih later⟩

theorem check_ok {config : ManifestConfig} (passed : config.check = .ok ()) :
    (∀ path ∈ config.sources, checkInside "[build].sources" path = .ok ()) ∧
      (config.outputDir ≠ [] → checkInside "[build].output_dir" config.outputDir = .ok ()) := by
  obtain ⟨-, passed⟩ := bind_ok passed
  obtain ⟨-, passed⟩ := bind_ok passed
  obtain ⟨sources, passed⟩ := bind_ok passed
  refine ⟨forM_ok sources, ?_⟩
  intro some
  rw [if_pos (by simpa using some)] at passed
  exact (bind_ok passed).1

end ManifestConfig

namespace Manifest

theorem inside_resolve {manifest : Manifest} {key path : Text} (rooted : Path.isAbsolute manifest.root = true)
    (normal : Path.clean manifest.root = manifest.root) (passed : ManifestConfig.checkInside key path = .ok ()) :
    Path.Inside manifest.root (manifest.resolve path) := by
  obtain ⟨relative, stays⟩ := ManifestConfig.checkInside_ok passed
  have taken : manifest.resolve path = Path.absolute manifest.root path.trim := by
    calc
      manifest.resolve path = Path.absolute manifest.root (Path.clean path.trim) := by
        rw [Path.absolute, Path.isAbsolute_clean, relative, if_neg Bool.false_ne_true, resolve]
      _ = Path.absolute manifest.root path.trim := (Path.absolute_inj rooted).mpr (Path.route_clean _ _)
  rw [taken]
  exact Path.inside_absolute rooted normal relative stays

end Manifest

/-- Whatever a manifest lists, if its settings pass the check then its sources and its outputs lie in the project. -/
theorem listed_paths_inside {manifest : Manifest} (passed : manifest.config.check = .ok ())
    (rooted : Path.isAbsolute manifest.root = true) (normal : Path.clean manifest.root = manifest.root) :
    (∀ path ∈ manifest.sourcePaths, Path.Inside manifest.root path) ∧
      (manifest.outputDir ≠ [] → Path.Inside manifest.root manifest.outputDir) := by
  obtain ⟨sources, output⟩ := ManifestConfig.check_ok passed
  constructor
  · intro path member
    unfold Manifest.sourcePaths at member
    split at member
    · rw [List.mem_singleton.mp member]
      exact .self rooted normal
    · obtain ⟨listed, among, rfl⟩ := List.mem_map.mp member
      exact Manifest.inside_resolve rooted normal (sources listed among)
  · unfold Manifest.outputDir
    by_cases none : manifest.config.outputDir = []
    · simp [none]
    · intro _
      rw [if_neg (by simpa using none)]
      exact Manifest.inside_resolve rooted normal (output none)

/-- Blanks, repeated slashes and ways up that are taken back do not lead out. -/
theorem listed_paths_inside_work :
    let manifest : Manifest := { path := "/work/safec.toml", root := "/work", config :=
      { sources := [" src//a/../../src/./", "."], outputDir := "out/../" } }
    manifest.sourcePaths = [Text.ofString "/work/src", Text.ofString "/work"] ∧ manifest.outputDir = Text.ofString "/work" ∧
      (∀ path ∈ manifest.sourcePaths, Path.Inside manifest.root path) ∧
      (manifest.outputDir ≠ [] → Path.Inside manifest.root manifest.outputDir) :=
  ⟨by decide +kernel, by decide +kernel, listed_paths_inside (by decide +kernel) (by decide) (by decide)⟩

end GenericC
