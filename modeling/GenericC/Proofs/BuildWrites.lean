import GenericC.Build
import GenericC.Proofs.LimitIndependence
import GenericC.Proofs.OutputPaths
import GenericC.Proofs.SparedFiles
import GenericC.Stock

/-! Where a build writes. Only one clash is looked for, that of a C file with its own source, and not even that one when
the output is given by its path. Sources that share an ending which no output has, and that lie below the base folder of an
output folder, have outputs that are apart from each other and from all sources. -/

namespace GenericC

namespace FileResult

def written (file : FileResult) : List Text := [file.outputPath, file.headerPath, file.instsPath].filter (!·.isEmpty)

def Follows (file earlier : FileResult) : Prop :=
  (file.source, file.outputPath, file.headerPath, file.instsPath) =
    (earlier.source, earlier.outputPath, earlier.headerPath, earlier.instsPath)

end FileResult

namespace BuildRequest

variable {file : FileResult}

/-- The paths of a result are those that were chosen for its source, if it came that far. -/
def Placed (request : BuildRequest) (current : Text) (file : FileResult) : Prop :=
  file.written = [] ∨ ∃ output, (request.plan current).outputFor file.source = .ok output ∧
    (file.outputPath, file.headerPath, file.instsPath) = (output, request.companions output)

theorem Placed.follows {request : BuildRequest} {current : Text} {earlier : FileResult}
    (placed : request.Placed current earlier) (follows : file.Follows earlier) : request.Placed current file := by
  simp only [FileResult.Follows, Prod.mk.injEq] at follows
  obtain ⟨source, output, header, insts⟩ := follows
  unfold Placed FileResult.written at placed ⊢
  rwa [source, output, header, insts]

theorem texts_written (request : BuildRequest) (file : FileResult) (result : CompileResult) (output : Text)
    (some : file.outputPath ≠ []) : ∀ text ∈ request.texts file result output, text.1 ∈ file.written := by
  unfold texts FileResult.written
  grind

variable {spared : List Text → Prop} {current : Text}

/-- Nothing that is spared lies at the place of a path. -/
def Clear (spared : List Text → Prop) (current path : Text) : Prop :=
  ∀ place : List Text, place.reverse = Path.route current path → ¬ spared place

open DiskM (Meets)

theorem meets_writeOutput {path : Text} (content : Text) (clear : Clear spared current path) :
    Meets spared current (writeOutput path content : DiskM (Option Text)) fun _ => True := by
  refine (Meets.makeFolders _).bind fun made _ => ?_
  cases made with
  | error error => exact .pure trivial
  | ok _ =>
    refine (Meets.write content clear).bind fun wrote _ => ?_
    cases wrote with
    | error error | ok _ => exact .pure trivial

theorem meets_writeOutputs {texts : List (Text × Text)} (clear : ∀ text ∈ texts, Clear spared current text.1) :
    Meets spared current (writeOutputs texts : DiskM (Option Text)) fun _ => True := by
  induction texts with
  | nil => exact .pure trivial
  | cons text rest ih =>
    obtain ⟨here, later⟩ := List.forall_mem_cons.mp clear
    refine (meets_writeOutput text.2 here).bind fun problem _ => ?_
    cases problem with
    | some problem => exact .pure trivial
    | none => exact ih later

variable {request : BuildRequest}

theorem meets_writeStage (result : CompileResult) (output : Text) (some : file.outputPath ≠ [])
    (clear : ∀ path ∈ file.written, Clear spared current path) :
    Meets spared current (request.writeStage file result output : DiskM _) fun after => after.1.Follows file := by
  have texts : ∀ text ∈ request.texts file result output, Clear spared current text.1 := fun text member =>
    clear _ (request.texts_written file result output some text member)
  refine (meets_writeOutputs texts).bind fun problem _ => ?_
  cases problem with
  | some problem => exact .pure rfl
  | none =>
    dsimp only
    split
    · exact .pure rfl
    · exact .pure rfl

theorem meets_compileCached [EntryCodec] {cache : Option Cache} (quiet : cache = none ∨ ∀ place, ¬ spared place)
    (settings : CompileSettings) (number : UInt32) (file : SourceFile) :
    Meets spared current (compileCached cache settings number file : DiskM CachedResult) fun _ => True := by
  cases cache with
  | none => exact .pure trivial
  | some cache =>
    have clear (path : Text) : Clear spared current path := fun place _ => (quiet.resolve_left (by simp)) place
    refine (Meets.bind (Meets.read _) fun found _ => ?_ : Meets spared current (cache.find? _ : DiskM _) fun _ => True).bind
      fun found _ => ?_
    · cases found with
      | ok bytes | error error => exact .pure trivial
    · dsimp only
      split
      · exact .pure trivial
      · split
        · exact .pure trivial
        · refine (Meets.bind (Meets.makeFolders _) fun made _ => ?_ :
              Meets spared current (cache.store _ _ : DiskM _) fun _ => True).bind
            fun stored _ => ?_
          · cases made with
            | error error => exact .pure trivial
            | ok _ => exact .write _ (clear _)
          · cases stored with
            | ok _ | error error => exact .pure trivial

theorem meets_compileStage [EntryCodec] (number : UInt32) (content : SourceFile) (some : file.outputPath ≠ [])
    (clear : ∀ path ∈ file.written, Clear spared current path) (quiet : request.cache = none ∨ ∀ place, ¬ spared place) :
    Meets spared current (request.compileStage file number content : DiskM _) fun after => after.1.Follows file := by
  have quiet : (if request.listInsts then none else request.cache) = none ∨ ∀ place, ¬ spared place := by
    refine quiet.imp_left fun none => ?_
    rw [none, ite_self]
  refine (meets_compileCached quiet _ _ _).bind fun compiled _ => ?_
  dsimp only
  split
  · exact .pure rfl
  · refine Meets.bind (meets_writeStage _ _ some clear) fun after follows => ?_
    exact .pure follows

theorem meets_buildFile [Composition] [EntryCodec] (source display : Text)
    (clear : ∀ file : FileResult, file.source = source → request.Placed current file →
      ∀ path ∈ file.written, Clear spared current path)
    (quiet : request.cache = none ∨ ∀ place, ¬ spared place) :
    Meets spared current (request.buildFile source display : DiskM _) fun after =>
      after.1.source = source ∧ request.Placed current after.1 := by
  refine Meets.workingDir.bind fun folder here => ?_
  subst here
  refine (Meets.read source).bind fun found _ => ?_
  cases found with
  | error error => exact .pure ⟨rfl, .inl rfl⟩
  | ok raw =>
    dsimp only
    split
    · exact .pure ⟨rfl, .inl rfl⟩
    next output chosen =>
      have placed (file : FileResult) (source_eq : file.source = source)
          (paths : (file.outputPath, file.headerPath, file.instsPath) = (output, request.companions output)) :
          request.Placed folder file := .inr ⟨output, source_eq ▸ chosen, paths⟩
      refine Meets.bind (meets_compileStage _ _ (OutputPlan.output_ne_nil chosen)
        (clear _ rfl (placed _ rfl rfl)) quiet) fun after follows => ?_
      refine .pure ⟨congrArg Prod.fst follows, Placed.follows (placed _ rfl rfl) follows⟩

theorem meets_buildFiles [Composition] [EntryCodec] (sources : List (Text × Text))
    (clear : ∀ file : FileResult, file.source ∈ sources.map (·.1) → request.Placed current file →
      ∀ path ∈ file.written, Clear spared current path)
    (quiet : request.cache = none ∨ ∀ place, ¬ spared place) :
    Meets spared current (request.buildFiles sources : DiskM _) fun after =>
      after.1.map (·.source) = sources.map (·.1) ∧ ∀ file ∈ after.1, request.Placed current file := by
  induction sources with
  | nil => exact .pure ⟨rfl, by simp⟩
  | cons source rest ih =>
    have first := meets_buildFile source.1 source.2 (fun file same => clear file (same ▸ List.mem_cons_self)) quiet
    refine first.bind fun built holds => ?_
    refine (ih fun file later => clear file (List.mem_cons_of_mem _ later)).bind fun more all => ?_
    refine .pure ⟨?_, List.forall_mem_cons.mpr ⟨holds.2, all.2⟩⟩
    exact congrArg₂ List.cons holds.1 all.1

/-- The results of a build: none when the request is not accepted, or else one for each source. -/
structure Answered (request : BuildRequest) (current : Text) (results : List FileResult) : Prop where
  sources : results = [] ∨ results.map (·.source) = request.files ∧ (request.outputPath = [] ∨ request.files.length ≤ 1)
  placed : ∀ file ∈ results, request.Placed current file

theorem single_of_accepted (accepted : ¬ (!request.outputPath.isEmpty && decide (1 < request.files.length)) = true) :
    request.outputPath = [] ∨ request.files.length ≤ 1 := by
  simp only [Bool.and_eq_true, Bool.not_eq_true', List.isEmpty_eq_false_iff, decide_eq_true_eq, not_and,
    Nat.not_lt] at accepted
  exact Classical.or_iff_not_imp_left.mpr accepted

theorem map_fst_paired (files : List Text) (shown : Text → Text) :
    (files.map fun path => (path, shown path)).map (·.1) = files := by
  rw [List.map_map]
  exact List.map_id _

theorem meets_build [Composition] [EntryCodec]
    (clear : ∀ file : FileResult, file.source ∈ request.files → request.Placed current file →
      ∀ path ∈ file.written, Clear spared current path)
    (quiet : request.cache = none ∨ ∀ place, ¬ spared place) :
    Meets spared current (build request : DiskM BuildResult) fun result => request.Answered current result.files := by
  unfold build
  split
  · exact .pure ⟨.inl rfl, by simp⟩
  · split
    · exact .pure ⟨.inl rfl, by simp⟩
    next accepted =>
      have accepted := single_of_accepted accepted
      refine Meets.workingDir.bind fun folder here => ?_
      subst here
      dsimp only
      split
      · refine .pure ⟨.inr ⟨?_, accepted⟩, fun file member => .inl ?_⟩
        · rw [List.map_map, List.map_map]
          exact List.map_id _
        simp only [List.mem_map] at member
        obtain ⟨source, -, rfl⟩ := member
        rfl
      · refine (meets_buildFiles _ (fun file member => clear file ?_) quiet).bind fun built all => ?_
        · rwa [map_fst_paired] at member
        exact .pure ⟨.inr ⟨all.1.trans (map_fst_paired _ _), accepted⟩, all.2⟩

open GenericC.Path OutputPlan

/-- All sources have one ending, which no output has. A given output is a C file, and with an output folder all sources lie
below the base folder. -/
structure Orderly (request : BuildRequest) (current : Text) : Prop where
  distinct : request.files.Pairwise fun first second => absolute current first ≠ absolute current second
  ending : ∃ ending, ending ∉ [] :: Text.ofString "." :: endings ∧ ∀ source ∈ request.files, suffix source = ending
  given : request.outputPath ≠ [] → suffix request.outputPath = Text.ofString ".c"
  below : request.outputPath = [] → request.outputDir ≠ [] → request.baseDir ≠ [] ∧ ∀ source ∈ request.files,
    ∃ way, wayBelow? current request.baseDir source = some way ∧ way ≠ Text.ofString "."

theorem written_endings {file : FileResult} {target stem : Text}
    (paths : (file.outputPath, file.headerPath, file.instsPath) =
      (target ++ (stem ++ Text.ofString ".c"), request.companions (target ++ (stem ++ Text.ofString ".c")))) :
    ∀ path ∈ file.written, ∃ ending ∈ endings, path = target ++ (stem ++ ending) := by
  simp only [companions, companionPath_file, Prod.mk.injEq] at paths
  obtain ⟨output, header, insts⟩ := paths
  intro path member
  obtain ⟨listed, some⟩ := List.mem_filter.mp member
  have some : path ≠ [] := by simpa using some
  simp only [List.mem_cons, List.not_mem_nil, or_false, output, header, insts] at listed
  rcases listed with rfl | rfl | rfl
  · exact ⟨_, List.mem_cons_self, rfl⟩
  · split at some
    · exact ⟨Text.ofString ".h", by simp [endings], by simp [*]⟩
    · exact absurd rfl some
  · split at some
    · exact ⟨Text.ofString ".insts", by simp [endings], by simp [*]⟩
    · exact absurd rfl some

section
variable (rooted : isAbsolute current = true) (orderly : request.Orderly current)
include rooted orderly

theorem Orderly.mirrors (listed : file.source ∈ request.files) (noPath : request.outputPath = []) {ending output : Text}
    (proper : ending ∉ [] :: Text.ofString "." :: endings) (same : ∀ source ∈ request.files, suffix source = ending)
    (chosen : (request.plan current).outputFor file.source = .ok output) :
    (request.plan current).Mirrors ending file.source output := by
  simp only [List.mem_cons, not_or] at proper
  refine mirrors_of_outputFor rooted noPath (same _ listed) proper.1 proper.2.1 (fun folder => ?_) chosen
  obtain ⟨base, ways⟩ := orderly.below noPath folder
  exact ⟨base, ways _ listed⟩

theorem Orderly.target (listed : file.source ∈ request.files) (placed : request.Placed current file) :
    ∀ path ∈ file.written, ∃ target stem ending, path = target ++ (stem ++ ending) ∧ ending ∈ endings ∧
      IsFolder target ∧ slash ∉ stem := by
  rcases placed with none | ⟨output, chosen, paths⟩
  · simp [none]
  have split : ∃ target stem, output = target ++ (stem ++ Text.ofString ".c") ∧ IsFolder target ∧ slash ∉ stem := by
    by_cases noPath : request.outputPath = []
    · obtain ⟨ending, proper, same⟩ := orderly.ending
      obtain ⟨_, target, stem, _, _, split, _, isTarget, free, _⟩ :=
        (orderly.mirrors rooted listed noPath proper same chosen).split
      exact ⟨target, stem, split, isTarget, free⟩
    · have given : (request.plan current).outputPath ≠ [] := noPath
      rw [outputFor, if_pos (by simpa using given)] at chosen
      cases chosen
      obtain ⟨-, target, stem, split, isTarget, free⟩ := exists_of_suffix (orderly.given noPath) (by decide) (by decide)
      exact ⟨target, stem, split, isTarget, free⟩
  obtain ⟨target, stem, rfl, isTarget, free⟩ := split
  intro path member
  obtain ⟨ending, listed, rfl⟩ := written_endings paths path member
  exact ⟨target, stem, ending, rfl, listed, isTarget, free⟩

theorem Orderly.apart_from_sources (listed : file.source ∈ request.files) (placed : request.Placed current file)
    {path source : Text} (member : path ∈ file.written) (other : source ∈ request.files) :
    route current path ≠ route current source := by
  intro clash
  obtain ⟨target, stem, written, rfl, output, isTarget, free⟩ := orderly.target rooted listed placed path member
  obtain ⟨ending, proper, same⟩ := orderly.ending
  simp only [List.mem_cons, not_or] at proper
  obtain ⟨isEnding, folder, stem', rfl, isFolder, free'⟩ := exists_of_suffix (same source other) proper.1 proper.2.1
  obtain ⟨rfl, -⟩ := same_file isTarget isFolder (isEnding_of_mem output) isEnding free free' clash
  exact proper.2.2 output

theorem Orderly.apart {first second : FileResult} (here : first.source ∈ request.files)
    (there : second.source ∈ request.files) (noPath : request.outputPath = []) (one : request.Placed current first)
    (two : request.Placed current second) (different : absolute current first.source ≠ absolute current second.source)
    {path other : Text} (left : path ∈ first.written) (right : other ∈ second.written) :
    route current path ≠ route current other := by
  intro clash
  rcases one with none | ⟨output, chosen, paths⟩
  · simp [none] at left
  rcases two with none | ⟨output', chosen', paths'⟩
  · simp [none] at right
  obtain ⟨ending, proper, same⟩ := orderly.ending
  obtain ⟨folder, target, stem, down, source, rfl, isFolder, isTarget, free, above, mirrored⟩ :=
    (orderly.mirrors rooted here noPath proper same chosen).split
  obtain ⟨folder', target', stem', down', source', rfl, isFolder', isTarget', free', above', mirrored'⟩ :=
    (orderly.mirrors rooted there noPath proper same chosen').split
  obtain ⟨written, output, rfl⟩ := written_endings paths path left
  obtain ⟨written', output', rfl⟩ := written_endings paths' other right
  obtain ⟨-, rfl, targets⟩ :=
    same_file isTarget isTarget' (isEnding_of_mem output) (isEnding_of_mem output') free free' clash
  -- The folders of the outputs mirror those of the sources, so these are one folder as well.
  have downs : down = down' := List.append_cancel_right (mirrored.symm.trans (targets.trans mirrored'))
  have folders : route current folder = route current folder' := above.trans (downs ▸ above'.symm)
  have isEnding : IsEnding ending := by
    simp only [List.mem_cons, not_or] at proper
    exact (exists_of_suffix (same _ here) proper.1 proper.2.1).1
  apply different
  rw [absolute_inj rooted, source, source', route_file _ isFolder (isEnding.leadsDown free),
    route_file _ isFolder' (isEnding.leadsDown free), folders]

end
end BuildRequest

open BuildRequest in
/-- Without a given output path no C file is written over its own source. In an orderly build nothing is written at one
place for two sources, and nothing where a source lies, so that every source can be read afterwards as before. -/
theorem orderly_outputs_apart [Composition] [EntryCodec] (request : BuildRequest) (disk : Disk) (settled : disk.Settled) :
    let done := (build request : DiskM BuildResult).run disk
    let place := Path.absolute disk.workingDir
    (request.outputPath = [] → ∀ file ∈ done.1.files, file.outputPath ≠ [] → place file.outputPath ≠ place file.source) ∧
    (request.Orderly disk.workingDir →
      done.1.files.Pairwise (fun first second =>
        ∀ path ∈ first.written, ∀ other ∈ second.written, place path ≠ place other) ∧
      (∀ file ∈ done.1.files, ∀ path ∈ file.written, ∀ source ∈ request.files, place path ≠ place source) ∧
      (request.cache = none → ∀ source ∈ request.files, ∀ content,
        disk.read source = .ok content → done.2.read source = .ok content)) := by
  intro done place
  have rooted := settled.rooted
  have answered : request.Answered disk.workingDir done.1.files := by
    have run : DiskM.Meets (fun _ => False) disk.workingDir (build request : DiskM BuildResult) _ :=
      meets_build (fun _ _ _ _ _ _ _ => id) (.inr fun _ => id)
    exact (run disk settled rfl).2
  have listed : ∀ file ∈ done.1.files, file.source ∈ request.files := by
    intro file member
    rcases answered.sources with none | ⟨same, -⟩
    · rw [none] at member
      cases member
    · exact same ▸ List.mem_map_of_mem member
  refine ⟨fun noPath file member some => ?_, fun orderly => ⟨?_, ?_, ?_⟩⟩
  · rcases answered.placed file member with none | ⟨output, chosen, paths⟩
    · have inside : file.outputPath ∈ file.written := by simp [FileResult.written, some]
      simp [none] at inside
    · rw [show file.outputPath = output from congrArg Prod.fst paths]
      exact (OutputPlan.outputFor_eq_ok noPath chosen).2
  · rcases answered.sources with none | ⟨same, accepted⟩
    · simp [none]
    rcases accepted with noPath | single
    · have distinct := orderly.distinct
      rw [← same, List.pairwise_map] at distinct
      refine distinct.imp_of_mem fun here there different path left other right clash => ?_
      exact orderly.apart rooted (listed _ here) (listed _ there) noPath (answered.placed _ here) (answered.placed _ there)
        different left right ((Path.absolute_inj rooted).mp clash)
    · rw [← same, List.length_map] at single
      generalize done.1.files = results at single
      cases results with
      | nil => exact .nil
      | cons first rest =>
        have none : rest = [] := by simpa using single
        rw [none]
        exact List.pairwise_singleton _ _
  · intro file member path inside source other clash
    exact orderly.apart_from_sources rooted (listed _ member) (answered.placed _ member) inside other
      ((Path.absolute_inj rooted).mp clash)
  · intro noCache source member content found
    let spared (kept : List Text) : Prop := ∃ source ∈ request.files, kept.reverse = Path.route disk.workingDir source
    have run : DiskM.Meets spared disk.workingDir (build request : DiskM BuildResult) _ :=
      meets_build (fun file here placed path inside kept led => ?_) (.inl noCache)
    · exact Disk.read_spared settled (run disk settled rfl).1 (fun kept led => ⟨source, member, led⟩) found
    · rintro ⟨other, there, same⟩
      exact orderly.apart_from_sources rooted here placed inside there (led.symm.trans same)

def twoSources : BuildRequest :=
  { files := ["src/a.sc", "src/sub/a.sc"], baseDir := "src", outputDir := "out", header := true, listInsts := true }

def sourceTree : Disk :=
  { entries := [(["work"], none), (["work", "src"], none), (["work", "src", "a.sc"], some "int x;\n"),
      (["work", "src", "sub"], none), (["work", "src", "sub", "a.sc"], some "int y;\n")]
    workingDir := "/work" }

theorem twoSources_kept :
    let done := (build twoSources : DiskM BuildResult).run sourceTree
    sourceTree.Settled ∧ twoSources.Orderly "/work" ∧ done.2.read "src/a.sc" = .ok (Text.ofString "int x;\n") ∧
      done.2.read "src/sub/a.sc" = .ok (Text.ofString "int y;\n") := by
  have settled : sourceTree.Settled := ⟨by decide, by decide⟩
  have orderly : twoSources.Orderly "/work" := by
    refine ⟨by decide, ⟨".sc", by decide, by decide⟩, by decide, fun _ _ => ⟨by decide, ?_⟩⟩
    simp only [twoSources, List.forall_mem_cons, List.not_mem_nil, false_implies, implies_true, and_true]
    exact ⟨⟨"a.sc", by decide, by decide⟩, "sub/a.sc", by decide, by decide⟩
  have first : sourceTree.read "src/a.sc" = .ok (Text.ofString "int x;\n") := by decide +kernel
  have second : sourceTree.read "src/sub/a.sc" = .ok (Text.ofString "int y;\n") := by decide +kernel
  obtain ⟨-, -, kept⟩ := (orderly_outputs_apart twoSources sourceTree settled).2 orderly
  exact ⟨settled, orderly, kept rfl _ (by decide) _ first, kept rfl _ (by decide) _ second⟩

end GenericC
