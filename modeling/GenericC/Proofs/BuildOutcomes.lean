import GenericC.Proofs.BuildWrites
import GenericC.Proofs.WrittenFiles

/-! Three records of what became of a source: its result, the events about it, and the files on disk. They are made on
different branches of a build. They agree for every source that comes to a C text; a source that compiles without an
error to an empty text has a result that did not fail, an error for its last event, and no file. -/

namespace GenericC

variable {events : List BuildEvent} {after : Disk} {built : FileResult × List BuildEvent}

namespace CompileResult

theorem finish_fields (result : CompileResult) (settings : CompileSettings) (path : Text) (clock : Text → Nat)
    (phases : List Text) : (result.finish settings path clock phases).insts = result.insts ∧
      (result.finish settings path clock phases).output = result.output := by
  unfold finish
  dsimp only
  split <;> exact ⟨rfl, rfl⟩

end CompileResult

theorem compileFile_insts {settings : CompileSettings} {number : UInt32} {file : SourceFile} {text : Text}
    (found : (compileFile settings number file).output = some text) :
    ((compileFile settings number file).insts).isSome = true := by
  unfold compileFile at found ⊢
  dsimp only at found ⊢
  split at found
  · rw [(CompileResult.finish_fields ..).2] at found
    cases found
  next clean =>
    rw [if_neg clean]
    split <;> rw [(CompileResult.finish_fields ..).1] <;> rfl

theorem compileFile_output {settings : CompileSettings} {number : UInt32} {file : SourceFile}
    (passed : (compileFile settings number file).failed = false) :
    ∃ text, (compileFile settings number file).output = some text ∧ (settings.emit.noComment = false → text ≠ []) := by
  have verdict := compileFile_verdict settings number file fun _ => 0
  have output : (compileFile settings number file).output = _ := congrArg Verdict.output verdict
  have failed : (compileFile settings number file).failed = _ := congrArg Verdict.failed verdict
  rw [passed] at failed
  unfold CompileSettings.verdictOn at output failed
  split at failed
  next clean =>
    rw [if_pos clean] at output
    refine ⟨_, output, fun commented => ?_⟩
    have blankLine : Text.ofString "\n\n" ≠ [] := by decide
    simp [Emitter.emit, Emitter.preamble, commented, Text.concat, blankLine]
  next => cases failed

namespace Path

theorem companionPath_split (output : Text) : ∃ folder stem own, output = folder ++ (stem ++ own) ∧ IsFolder folder ∧
    slash ∉ stem ∧ own ∈ [Text.ofString ".c", []] ∧ ∀ ending, companionPath output ending = folder ++ (stem ++ ending) := by
  by_cases ends : output.endsWith ".c" = true
  · obtain ⟨front, rfl⟩ := List.isSuffixOf_iff_suffix.mp ends
    obtain ⟨folder, stem, rfl, isFolder, free⟩ := exists_folder front
    rw [List.append_assoc]
    exact ⟨folder, stem, _, rfl, isFolder, free, List.mem_cons_self, companionPath_file folder stem⟩
  · obtain ⟨folder, stem, rfl, isFolder, free⟩ := exists_folder output
    refine ⟨folder, stem, [], by rw [List.append_nil], isFolder, free, by simp, fun ending => ?_⟩
    rw [companionPath, Text.dropEnd, if_neg ends, List.append_assoc]

theorem companions_lastApart {output : Text} (some : output ≠ []) :
    [output, companionPath output ".h", companionPath output ".insts"].Pairwise LastApart := by
  obtain ⟨folder, stem, own, rfl, isFolder, free, listed, beside⟩ := companionPath_split output
  have apart {first second : Text} (someFirst : folder ++ (stem ++ first) ≠ []) (someSecond : second ≠ [])
      (freeFirst : slash ∉ first) (freeSecond : slash ∉ second) (different : first ≠ second) :
      LastApart (folder ++ (stem ++ first)) (folder ++ (stem ++ second)) := by
    intro file file' same
    have endings := Disk.endsInSlash_of_file file'
    rw [names_last isFolder (by simp [free, freeFirst]) someFirst (Disk.endsInSlash_of_file file),
      names_last isFolder (by simp [free, freeSecond]) (by simp [someSecond]) endings, List.getLast?_concat,
      List.getLast?_concat] at same
    exact different (List.append_cancel_left (Option.some.inj same))
  have ending : slash ∉ own ∧ own ≠ Text.ofString ".h" ∧ own ≠ Text.ofString ".insts" := by
    simp only [List.mem_cons, List.not_mem_nil, or_false] at listed
    rcases listed with rfl | rfl <;> decide
  have header : folder ++ (stem ++ Text.ofString ".h") ≠ [] := by
    have : Text.ofString ".h" ≠ [] := by decide
    simp [this]
  rw [beside, beside]
  simp only [List.pairwise_cons, List.mem_cons, List.not_mem_nil, or_false, forall_eq_or_imp, forall_eq, false_implies,
    implies_true, List.Pairwise.nil, and_true]
  exact ⟨⟨apart some (by decide) ending.1 (by decide) ending.2.1, apart some (by decide) ending.1 (by decide) ending.2.2⟩,
    apart header (by decide) (by decide) (by decide) (by decide)⟩

end Path

theorem Bag.hasErrors_report {bag : Bag} {item : Diagnostic} (harmless : item.isError = false) :
    (bag.report item).hasErrors = bag.hasErrors := by
  unfold Bag.report Bag.add
  split
  · rfl
  · simp [Bag.hasErrors, harmless]

theorem errorSummary_none {bag : Bag} (clean : bag.hasErrors = false) : errorSummary bag = none := by
  have none : bag.items.filter (fun item => item.severity = .error) = [] := by
    rw [List.filter_eq_nil_iff]
    intro item member severe
    have harmless : item.isError = false := by simpa using List.any_eq_false.mp clean item member
    rw [Diagnostic.isError, of_decide_eq_true severe] at harmless
    cases harmless
  rw [errorSummary, none]

open DiskM (Ends)

theorem compileCached_ends [EntryCodec] (cache : Option Cache) (settings : CompileSettings) (number : UInt32) (file : SourceFile)
    (disk : Disk) :
    Ends (compileCached cache settings number file : DiskM CachedResult) disk fun compiled after =>
      (compiled.cached = false → compiled.result = compileFile settings number file) ∧
        (cache = none → compiled.cached = false ∧ after = disk) := by
  cases cache with
  | none => exact .pure ⟨fun _ => rfl, fun _ => ⟨rfl, rfl⟩⟩
  | some cache =>
    have anything {α : Type} (program : DiskM α) (disk : Disk) : Ends program disk fun _ _ => True := trivial
    refine (anything (cache.find? _) disk).bind fun found between _ => ?_
    dsimp only
    split
    · exact .pure ⟨fun fresh => (by cases fresh), fun none => (by cases none)⟩
    · split
      · exact .pure ⟨fun _ => rfl, fun none => (by cases none)⟩
      · refine (anything (cache.store _ _) between).bind fun stored after _ => ?_
        cases stored with
        | ok _ | error error => exact .pure ⟨fun _ => rfl, fun none => (by cases none)⟩

namespace BuildRequest

def compiledFrom [Composition] (request : BuildRequest) (source raw headerPath : Text) : CompileResult :=
  compileFile (request.settingsFor headerPath) 0 ⟨Path.clean source, (FileContent.normalize raw).1, (FileContent.normalize raw).2⟩

/-- A source that was read and compiled, with the paths that were chosen for it. -/
structure Compiled [Composition] (request : BuildRequest) (source display : Text) (before : Disk) (file : FileResult)
    (result : CompileResult) : Prop where
  named : file.display = display
  chosen : (request.plan before.workingDir).outputFor source = .ok file.outputPath
  beside : (file.headerPath, file.instsPath) = request.companions file.outputPath
  given : file.result = some result
  whole : file.problem = none
  fresh : file.cached = false → ∃ raw, before.read source = .ok raw ∧
    result.output = (request.compiledFrom source raw file.headerPath).output ∧
    result.insts = (request.compiledFrom source raw file.headerPath).insts ∧
    result.failed = (request.compiledFrom source raw file.headerPath).failed
  uncached : request.listInsts = true ∨ request.cache = none → file.cached = false

/-- All that the turn of a source can come to. -/
inductive Outcome [Composition] (request : BuildRequest) (source display : Text) (before : Disk) :
    FileResult × List BuildEvent → Disk → Prop
  /-- It cannot be read, or there is no path for its output. -/
  | stopped {file : FileResult} {stage : BuildStage} {problem : Text} (named : file.display = display)
      (failed : file.problem = some problem)
      (reason : (∀ raw, before.read source ≠ .ok raw) ∨
        ∀ output, (request.plan before.workingDir).outputFor source ≠ .ok output) :
      Outcome request source display before
        (file, [{ file := display, stage := .load, status := .working },
          { file := display, stage, status := .error, problem := some problem }]) before
  | textless {file : FileResult} {result : CompileResult} {after : Disk}
      (compiled : request.Compiled source display before file result) (none : file.output? = none)
      (untouched : request.cache = Option.none → after = before) :
      Outcome request source display before
        (file, [{ file := display, stage := .load, status := .working },
          { file := display, stage := .compile, status := .working },
          { file := display, stage := .compile, status := .error, problem := errorSummary result.bag }]) after
  | unwritten {file reached : FileResult} {result : CompileResult} {cached : Bool} {text problem : Text} {after : Disk}
      (compiled : request.Compiled source display before reached result) (some : reached.output? = some text)
      (named : file.display = display) (failed : file.problem = Option.some problem)
      (fault : ∃ between, (request.cache = none → between = before) ∧
        ((writeOutputs (request.texts reached result text) : DiskM (Option Text)).run between).1 = Option.some problem) :
      Outcome request source display before
        (file, [{ file := display, stage := .load, status := .working },
          { file := display, stage := .compile, status := .working },
          { file := display, stage := .compile, status := .done, cached },
          { file := display, stage := .write, status := .working },
          { file := display, stage := .write, status := .error, problem := Option.some problem }]) after
  | written {file : FileResult} {result : CompileResult} {cached : Bool} {text : Text} {after : Disk}
      (compiled : request.Compiled source display before file result) (some : file.output? = some text)
      (held : ∀ item ∈ request.texts file result text, after.Holds item.1 item.2) :
      Outcome request source display before
        (file, [{ file := display, stage := .load, status := .working },
          { file := display, stage := .compile, status := .working },
          { file := display, stage := .compile, status := .done, cached },
          { file := display, stage := .write, status := .working },
          if result.failed then { file := display, stage := .write, status := .error, problem := errorSummary result.bag }
          else { file := display, stage := .write, status := .done }]) after

variable {request : BuildRequest} {source display : Text}

theorem texts_lastApart {file : FileResult} (some : file.outputPath ≠ [])
    (beside : (file.headerPath, file.instsPath) = request.companions file.outputPath) (result : CompileResult) (output : Text) :
    (request.texts file result output).Pairwise fun first second => Path.LastApart first.1 second.1 := by
  obtain ⟨header, insts⟩ := Prod.mk.inj beside
  have one (on : Bool) (path content : Text) :
      ((if (if on then path else []).isEmpty then [] else [((if on then path else []), content)]).map Prod.fst).Sublist
        [path] := by
    cases on with
    | false => exact List.nil_sublist _
    | true =>
      cases path with
      | nil => exact List.nil_sublist _
      | cons _ _ => exact .refl _
  rw [← List.pairwise_map (f := Prod.fst)]
  refine (Path.companions_lastApart some).sublist ?_
  unfold texts
  rw [header, insts, List.map_append, List.map_cons]
  refine .cons_cons _ (.append (one _ _ _) ?_)
  cases result.insts with
  | none => exact List.nil_sublist _
  | some found => exact one _ _ _

theorem writeStage_ends (file : FileResult) (some : file.outputPath ≠ [])
    (beside : (file.headerPath, file.instsPath) = request.companions file.outputPath)
    {result : CompileResult} (given : file.result = Option.some result) (output : Text) (disk : Disk) :
    Ends (request.writeStage file result output : DiskM (FileResult × List BuildEvent)) disk fun built after =>
      (∃ problem, ((writeOutputs (request.texts file result output) : DiskM (Option Text)).run disk).1 = Option.some problem ∧
        built.1.display = file.display ∧ built.1.problem = Option.some problem ∧ built.2 =
        [{ file := file.display, stage := .write, status := .working },
          { file := file.display, stage := .write, status := .error, problem := Option.some problem }]) ∨
      ((∀ item ∈ request.texts file result output, after.Holds item.1 item.2) ∧
        built = ({ file with timings := file.timings.set .write 0 },
          [{ file := file.display, stage := .write, status := .working },
            if result.failed then
              { file := file.display, stage := .write, status := .error, problem := errorSummary result.bag }
            else { file := file.display, stage := .write, status := .done }])) := by
  refine (writeOutputs_ends (texts_lastApart some beside result output) disk).ran.bind fun problem between ends => ?_
  obtain ⟨ran, ends⟩ := ends
  cases problem with
  | some problem => exact .pure (.inl ⟨problem, congrArg Prod.fst ran, rfl, rfl, rfl⟩)
  | none =>
    have same : { file with timings := file.timings.set .write 0, result := Option.some result } =
        { file with timings := file.timings.set .write 0 } := by rw [← given]
    dsimp only
    rw [same]
    split
    · exact .pure (.inr ⟨(ends rfl).1, rfl⟩)
    · exact .pure (.inr ⟨(ends rfl).1, rfl⟩)

theorem compileStage_ends [Composition] [EntryCodec] {file : FileResult} {before : Disk} {raw : Text}
    (found : before.read source = .ok raw)
    (chosen : (request.plan before.workingDir).outputFor source = .ok file.outputPath)
    (beside : (file.headerPath, file.instsPath) = request.companions file.outputPath) (whole : file.problem = none) :
    Ends (request.compileStage file 0 ⟨Path.clean source, (FileContent.normalize raw).1, (FileContent.normalize raw).2⟩)
      before fun built after =>
        Outcome request source file.display before
          (built.1, { file := file.display, stage := .load, status := .working } :: built.2) after := by
  refine (compileCached_ends _ _ _ _ before).bind fun compiled between ends => ?_
  obtain ⟨fresh, uncached⟩ := ends
  extract_lets bag plain result built
  have same : bag.hasErrors = compiled.result.bag.hasErrors := by
    unfold bag
    split
    · exact Bag.hasErrors_report rfl
    · rfl
  clear_value bag
  have reached : request.Compiled source file.display before built result := by
    refine ⟨rfl, chosen, beside, rfl, whole, fun isFresh => ⟨raw, found, ?_⟩, fun noCache => ?_⟩
    · have fresh : compiled.result = request.compiledFrom source raw file.headerPath := fresh isFresh
      show compiled.result.output = (request.compiledFrom source raw file.headerPath).output ∧
        compiled.result.insts = (request.compiledFrom source raw file.headerPath).insts ∧
        bag.hasErrors = (request.compiledFrom source raw file.headerPath).bag.hasErrors
      rw [← fresh]
      exact ⟨rfl, rfl, same⟩
    · refine (uncached ?_).1
      rcases noCache with listed | none
      · rw [listed, if_pos rfl]
      · rw [none, ite_self]
  split
  next none =>
    refine .pure (.textless reached none fun noCache => (uncached ?_).2)
    rw [noCache, ite_self]
  next output some =>
    have wrote := writeStage_ends built (OutputPlan.output_ne_nil chosen) beside rfl output between
    refine wrote.bind fun after final ends => ?_
    rcases ends with ⟨problem, fault, named, failed, events⟩ | ⟨held, rfl⟩
    · refine .pure ?_
      rw [events]
      refine .unwritten reached some named failed ⟨between, fun noCache => (uncached ?_).2, fault⟩
      rw [noCache, ite_self]
    · exact .pure (.written ⟨rfl, chosen, beside, rfl, whole, reached.fresh, reached.uncached⟩ some held)

theorem buildFile_ends [Composition] [EntryCodec] (request : BuildRequest) (source display : Text) (disk : Disk) :
    Ends (request.buildFile source display : DiskM (FileResult × List BuildEvent)) disk
      (request.Outcome source display disk) := by
  refine Ends.workingDir.bind fun folder here ends => ?_
  obtain ⟨rfl, rfl⟩ := ends
  refine (Ends.read source).bind fun found here ends => ?_
  obtain ⟨rfl, rfl⟩ := ends
  dsimp only
  split
  next error unread =>
    exact .pure (.stopped rfl rfl (.inl fun raw found => by rw [unread] at found; cases found))
  next raw found =>
    split
    next problem noPath =>
      exact .pure (.stopped rfl rfl (.inr fun output chosen => by rw [noPath] at chosen; cases chosen))
    next output chosen =>
      refine Ends.bind (compileStage_ends found chosen rfl rfl) fun built after outcome => ?_
      exact .pure outcome

end BuildRequest

structure Turn where
  file : FileResult
  events : List BuildEvent
  disk : Disk

/-- The records of a turn tell the same, except for a source that came to an empty text. -/
structure Turn.Agrees (request : BuildRequest) (turn : Turn) : Prop where
  own : ∀ event ∈ turn.events, event.file = turn.file.display
  failed : turn.file.failed = true → ∃ event, turn.events.getLast? = some event ∧ event.status = .error
  done : turn.file.failed = false → ∀ text, turn.file.output? = some text →
    turn.events.getLast? = some { file := turn.file.display, stage := .write, status := .done } ∧
      turn.disk.read turn.file.outputPath = .ok text ∧
      ∃ result, turn.file.result = some result ∧
        (turn.file.headerPath ≠ [] → turn.disk.read turn.file.headerPath = .ok (result.header.getD [])) ∧
        (turn.file.instsPath ≠ [] → ∃ insts, result.insts = some insts ∧
          turn.disk.read turn.file.instsPath = .ok (insts.dump (some turn.file.files) request.paths))
  blank : turn.file.failed = false → turn.file.output? = none →
    turn.events.getLast? = some { file := turn.file.display, stage := .compile, status := .error }
  commented : turn.file.failed = false → turn.file.cached = false → request.compile.emit.noComment = false →
    turn.file.output?.isSome = true

namespace BuildRequest

variable {request : BuildRequest} {source display : Text} {before : Disk} {file : FileResult} {result : CompileResult}

theorem Compiled.failed_iff [Composition] (compiled : request.Compiled source display before file result) :
    file.failed = result.failed := by
  simp [FileResult.failed, compiled.whole, compiled.given]

theorem Compiled.comments [Composition] (compiled : request.Compiled source display before file result)
    (passed : file.failed = false) (fresh : file.cached = false) (commented : request.compile.emit.noComment = false) :
    file.output?.isSome = true := by
  obtain ⟨raw, -, output, -, failed⟩ := compiled.fresh fresh
  rw [compiled.failed_iff, failed] at passed
  obtain ⟨text, found, nonempty⟩ := compileFile_output passed
  have settings : (request.settingsFor file.headerPath).emit = request.compile.emit := by
    unfold settingsFor
    split <;> rfl
  rw [settings] at nonempty
  have some : result.output = some text := output.trans found
  simp [FileResult.output?, compiled.given, some, nonempty commented]

theorem Compiled.lists [Composition] (compiled : request.Compiled source display before file result) {text : Text}
    (some : file.output? = some text) (listed : file.instsPath ≠ []) : ∃ insts, result.insts = Option.some insts := by
  have asked : request.listInsts = true := by
    have path := congrArg Prod.snd compiled.beside
    by_contra off
    exact listed (path.trans (if_neg off))
  obtain ⟨raw, -, output, insts, -⟩ := compiled.fresh (compiled.uncached (.inl asked))
  have found : result.output = Option.some text := by
    rw [FileResult.output?, compiled.given, Option.bind_some] at some
    exact (Option.filter_eq_some_iff.mp some).1
  rw [insts]
  exact Option.isSome_iff_exists.mp (compileFile_insts (output.symm.trans found))

theorem Outcome.agrees [Composition] (outcome : request.Outcome source display before (file, events) after) :
    Turn.Agrees request ⟨file, events, after⟩ := by
  cases outcome with
  | stopped named failed | unwritten _ _ named failed =>
    have failed : file.failed = true := by simp [FileResult.failed, failed]
    refine ⟨by simp [named], fun _ => ⟨_, rfl, rfl⟩, ?_, ?_, ?_⟩ <;> simp [failed]
  | @textless _ result _ compiled none =>
    refine ⟨by simp [compiled.named], fun _ => ⟨_, rfl, rfl⟩, fun _ text some => ?_, fun passed _ => ?_,
      fun passed fresh on => ?_⟩
    · rw [none] at some
      cases some
    · rw [compiled.failed_iff] at passed
      rw [compiled.named, errorSummary_none passed]
      rfl
    · have some := compiled.comments passed fresh on
      rw [none] at some
      cases some
  | @written _ result cached text _ compiled some held =>
    refine ⟨?_, fun failed => ?_, fun passed output found => ?_, fun _ none => ?_, fun passed fresh on => ?_⟩
    · cases result.failed <;> simp [compiled.named]
    · rw [compiled.failed_iff] at failed
      rw [failed, if_pos rfl]
      exact ⟨_, rfl, rfl⟩
    · rw [compiled.failed_iff] at passed
      rw [passed, if_neg Bool.false_ne_true, compiled.named]
      have same : text = output := Option.some.inj (some.symm.trans found)
      subst same
      have holds (path content : Text) (member : (path, content) ∈ request.texts file result text) :
          after.read path = .ok content := (held (path, content) member).1
      refine ⟨rfl, holds _ _ List.mem_cons_self, result, compiled.given, fun header => holds _ _ ?_, fun listed => ?_⟩
      · simp [texts, header]
      · obtain ⟨insts, given⟩ := compiled.lists some listed
        refine ⟨insts, given, holds _ _ ?_⟩
        simp [texts, given, listed]
    · rw [some] at none
      cases none
    · rw [some]
      rfl

def sources (request : BuildRequest) (workingDir : Text) : List (Text × Text) :=
  request.files.map fun source => (source, displayName workingDir request.baseDir source)

/-- The turns of sources, each on the disk that the one before it left. -/
def turns [Composition] [EntryCodec] (request : BuildRequest) : List (Text × Text) → Disk → List Turn
  | [], _ => []
  | source :: rest, disk =>
    let built := (request.buildFile source.1 source.2 : DiskM (FileResult × List BuildEvent)).run disk
    ⟨built.1.1, built.1.2, built.2⟩ :: request.turns rest built.2

def diskAfter (disk : Disk) (turns : List Turn) : Disk := turns.foldl (fun _ turn => turn.disk) disk

theorem buildFiles_run [Composition] [EntryCodec] (request : BuildRequest) (sources : List (Text × Text)) (disk : Disk) :
    (request.buildFiles sources : DiskM (List FileResult × List BuildEvent)).run disk =
      (((request.turns sources disk).map (·.file), (request.turns sources disk).flatMap (·.events)),
        diskAfter disk (request.turns sources disk)) := by
  induction sources generalizing disk with
  | nil => rfl
  | cons source rest ih =>
    have step : (request.buildFiles (source :: rest) : DiskM (List FileResult × List BuildEvent)).run disk =
        let built := (request.buildFile source.1 source.2 : DiskM (FileResult × List BuildEvent)).run disk
        let more := (request.buildFiles rest : DiskM (List FileResult × List BuildEvent)).run built.2
        ((built.1.1 :: more.1.1, built.1.2 ++ more.1.2), more.2) := rfl
    rw [step]
    dsimp only
    rw [ih, turns, List.map_cons, List.flatMap_cons]
    rfl

/-- A build that is neither refused nor called off is the turns of its sources. -/
theorem build_ends [Composition] [EntryCodec] (request : BuildRequest) (disk : Disk) :
    Ends (build request : DiskM BuildResult) disk fun result after => result.failure = none →
      let turns := request.turns (request.sources disk.workingDir) disk
      after = diskAfter disk turns ∧ result.files = turns.map (·.file) ∧
        (request.outputPath = [] ∨ request.files.length ≤ 1) ∧
        ∃ status, result.events =
          ((request.sources disk.workingDir).map fun source => { file := source.2, stage := .load, status := .queued }) ++
            { stage := .build, status := .working } :: (turns.flatMap (·.events) ++ [{ stage := .build, status }]) := by
  unfold build
  split
  · exact .pure fun accepted => by cases accepted
  · split
    · exact .pure fun accepted => by cases accepted
    next single =>
      refine Ends.workingDir.bind fun folder here ends => ?_
      obtain ⟨rfl, rfl⟩ := ends
      dsimp only
      split
      · exact .pure fun accepted => by cases accepted
      · have run := request.buildFiles_run (request.sources here.workingDir) here
        have built : Ends (request.buildFiles (request.sources here.workingDir)) here fun built after =>
            (built, after) = (((request.turns (request.sources here.workingDir) here).map (·.file),
              (request.turns (request.sources here.workingDir) here).flatMap (·.events)),
              diskAfter here (request.turns (request.sources here.workingDir) here)) := run
        refine Ends.bind built fun built after ends => ?_
        obtain ⟨rfl, rfl⟩ := Prod.mk.inj ends
        exact .pure fun _ => ⟨rfl, rfl, single_of_accepted single, _, List.append_assoc _ _ _⟩

variable {disk : Disk}

/-- What comes before and after a turn are the turns of the sources before and after its own. -/
theorem turns_split [Composition] [EntryCodec] {sources : List (Text × Text)} {front back : List Turn} {turn : Turn}
    (split : request.turns sources disk = front ++ turn :: back) :
    ∃ first source rest, sources = first ++ source :: rest ∧ front = request.turns first disk ∧
      (request.buildFile source.1 source.2 : DiskM (FileResult × List BuildEvent)).run (diskAfter disk front) =
        ((turn.file, turn.events), turn.disk) ∧
      back = request.turns rest turn.disk := by
  induction front generalizing sources disk with
  | nil =>
    cases sources with
    | nil => cases split
    | cons source rest =>
      obtain ⟨rfl, rfl⟩ := List.cons.inj split
      exact ⟨[], source, rest, rfl, rfl, rfl, rfl⟩
  | cons early front ih =>
    cases sources with
    | nil => cases split
    | cons first rest =>
      obtain ⟨rfl, later⟩ := List.cons.inj split
      obtain ⟨more, source, rest, rfl, rfl, ran, rfl⟩ := ih later
      exact ⟨first :: more, source, rest, rfl, rfl, ran, rfl⟩

theorem turn_outcome [Composition] [EntryCodec] {sources : List (Text × Text)} {turn : Turn}
    (member : turn ∈ request.turns sources disk) :
    ∃ source ∈ sources, ∃ before, request.Outcome source.1 source.2 before (turn.file, turn.events) turn.disk := by
  obtain ⟨front, back, split⟩ := List.append_of_mem member
  obtain ⟨first, source, rest, rfl, -, ran, -⟩ := turns_split split
  have outcome : request.Outcome source.1 source.2 _ _ _ := request.buildFile_ends source.1 source.2 (diskAfter disk front)
  rw [ran] at outcome
  exact ⟨source, by simp, _, outcome⟩

theorem Outcome.told [Composition] {source display : Text} {before : Disk}
    (outcome : request.Outcome source display before built after) : built.1.display = display ∧ built.2 ≠ [] := by
  cases outcome with
  | stopped named | unwritten _ _ named => exact ⟨named, List.cons_ne_nil _ _⟩
  | textless compiled | written compiled => exact ⟨compiled.named, List.cons_ne_nil _ _⟩

theorem turns_spare [Composition] [EntryCodec] (noCache : request.cache = none) {sources : List (Text × Text)} {start : Disk}
    (settled : start.Settled) (spared : List Text → Prop) (clear : ∀ file : FileResult, file.source ∈ sources.map (·.1) →
      request.Placed start.workingDir file → ∀ path ∈ file.written, Clear spared start.workingDir path) :
    start.Spares spared (diskAfter start (request.turns sources start)) := by
  obtain ⟨spares, -⟩ := meets_buildFiles sources clear (.inl noCache) start settled rfl
  rwa [buildFiles_run] at spares

open DiskM (Meets) in
/-- In an orderly build without a cache the turns may come in any order. Each of them finds its source as it was in the
beginning, and what it writes is still there in the end. -/
theorem Orderly.any_order [Composition] [EntryCodec] (settled : disk.Settled) (orderly : request.Orderly disk.workingDir)
    (noCache : request.cache = none) (single : request.outputPath = [] ∨ request.files.length ≤ 1)
    {order : List (Text × Text)} (perm : order.Perm (request.sources disk.workingDir)) {front back : List Turn} {turn : Turn}
    (split : request.turns order disk = front ++ turn :: back) :
    (∀ raw, disk.read turn.file.source = .ok raw → (diskAfter disk front).read turn.file.source = .ok raw) ∧
      ∀ path ∈ turn.file.written, ∀ content, turn.disk.read path = .ok content →
        (diskAfter disk (request.turns order disk)).read path = .ok content := by
  obtain ⟨first, source, rest, rfl, rfl, ran, rfl⟩ := turns_split split
  have files : request.files.Perm (first.map (·.1) ++ source.1 :: rest.map (·.1)) := by
    rw [← map_fst_paired request.files (displayName disk.workingDir request.baseDir), ← List.map_cons, ← List.map_append]
    exact (perm.map _).symm
  have early := turns_spare noCache settled (fun _ => False) fun file (_ : file.source ∈ first.map (·.1)) _ _ _ _ _ => id
  have own : Meets (fun _ => False) disk.workingDir (request.buildFile source.1 source.2 : DiskM _) _ :=
    meets_buildFile source.1 source.2 (fun _ _ _ _ _ _ _ => id) (.inl noCache)
  obtain ⟨turned, named, placed⟩ := own _ (settled.of_same early.workingDir) early.workingDir
  rw [ran] at turned named placed
  dsimp only at turned named placed
  have listed : turn.file.source ∈ request.files := named ▸ files.mem_iff.mpr (by simp)
  constructor
  · have spares := turns_spare noCache settled (·.reverse = Path.route disk.workingDir turn.file.source)
      fun file inside there path written place led kept =>
        orderly.apart_from_sources settled.rooted (files.mem_iff.mpr (List.mem_append_left _ inside)) there written listed
          (led.symm.trans kept)
    exact fun raw => Disk.read_spared settled spares fun place led => led
  intro path member content held
  have folder : turn.disk.workingDir = disk.workingDir := turned.workingDir.trans early.workingDir
  have still : turn.disk.Settled := settled.of_same folder
  have last : diskAfter disk (request.turns (first ++ source :: rest) disk) =
      diskAfter turn.disk (request.turns rest turn.disk) := by
    rw [split]
    simp [diskAfter]
  rw [last]
  rcases single with noPath | single
  · have spares := turns_spare noCache still (·.reverse = Path.route turn.disk.workingDir path)
      fun file inside there other written place led kept => by
        rw [folder] at there led kept
        have distinct := (files.pairwise_iff fun different => Ne.symm different).mp orderly.distinct
        rw [List.pairwise_append, List.pairwise_cons] at distinct
        have later := files.mem_iff.mpr (List.mem_append_right _ (List.mem_cons_of_mem _ inside))
        refine orderly.apart settled.rooted listed later noPath placed there ?_ member written (kept.symm.trans led)
        rw [named]
        exact distinct.2.1.1 _ inside
    exact Disk.read_spared still spares (fun place led => led) held
  · have none : rest = [] := by
      rw [files.length_eq] at single
      simp only [List.length_append, List.length_cons, List.length_map] at single
      exact List.eq_nil_of_length_eq_zero (by omega)
    rw [none]
    exact held

end BuildRequest

theorem lastEvent?_append (first second : List BuildEvent) (file : Text) :
    lastEvent? (first ++ second) file = (lastEvent? second file).or (lastEvent? first file) := by
  simp [lastEvent?, List.find?_append]

theorem lastEvent?_none {file : Text} (other : ∀ event ∈ events, event.file ≠ file) :
    lastEvent? events file = none := by
  simpa [lastEvent?] using other

theorem lastEvent?_own {file : Text} (own : ∀ event ∈ events, event.file = file) :
    lastEvent? events file = events.getLast? := by
  cases events using List.reverseRecOn with
  | nil => rfl
  | append_singleton front last =>
    simp [lastEvent?, own last (by simp)]

theorem displayName_ne_nil {workingDir : Text} (rooted : Path.isAbsolute workingDir = true) (baseDir source : Text) :
    displayName workingDir baseDir source ≠ [] := by
  unfold displayName
  dsimp only
  split
  · exact Path.clean_ne_nil _
  · cases below : (wayBelow? workingDir (Text.trim baseDir) (Path.clean source)).filter (· ≠ Text.ofString ".") with
    | none =>
      rw [Option.getD_none, Path.absolute_eq rooted]
      exact List.cons_ne_nil _ _
    | some way =>
      obtain ⟨found, notHere⟩ := Option.filter_eq_some_iff.mp below
      obtain ⟨down, some, lower, rfl⟩ := Path.wayBelow?_spec rooted found (by simpa using notHere)
      intro nothing
      have named : ∀ name ∈ down.reverse, Path.IsName name := by
        intro name member
        refine (Path.route_leadsDown workingDir (Path.clean source) name ?_).toIsName
        rw [lower]
        exact List.mem_append_left _ (List.mem_reverse.mp member)
      have parts := Path.names_joinNames named
      rw [Option.getD_some] at nothing
      rw [nothing] at parts
      exact some (List.reverse_eq_nil_iff.mp parts.symm)

theorem lastEvent?_turn (front back : List Turn) {turn : Turn} {request : BuildRequest} (agrees : turn.Agrees request)
    (others : ∀ other ∈ back, other.Agrees request) (apart : ∀ other ∈ back, other.file.display ≠ turn.file.display)
    (named : turn.file.display ≠ []) (early : List BuildEvent) (status : BuildStatus) (some : turn.events ≠ []) :
    lastEvent? (early ++ ((front ++ turn :: back).flatMap (·.events) ++ [{ stage := .build, status }])) turn.file.display =
      turn.events.getLast? := by
  have last : lastEvent? [{ stage := .build, status }] turn.file.display = none :=
    lastEvent?_none (by simpa using named.symm)
  have later : lastEvent? (back.flatMap (·.events)) turn.file.display = none := by
    refine lastEvent?_none fun event member => ?_
    obtain ⟨other, inside, told⟩ := List.mem_flatMap.mp member
    rw [(others other inside).own event told]
    exact apart other inside
  obtain ⟨event, own⟩ := Option.ne_none_iff_exists'.mp (mt List.getLast?_eq_none_iff.mp some)
  rw [List.flatMap_append, List.flatMap_cons, lastEvent?_append, lastEvent?_append, lastEvent?_append, lastEvent?_append,
    last, later, lastEvent?_own agrees.own, own]
  rfl

/-- In a build that is neither refused nor called off, the records of every source agree. A result that failed has an error
for its last event. One that did not fail and has a C text has the end of writing for its last event, and its C text, its
header and its list of instantiations are in the files at the end of its turn; in an orderly build without a cache they are
there at the end of the build, and all this in whatever order the sources have their turns. The last event of a source is
the latest one about its name, unless a later source has the same name. A result that did not fail has a C text whenever a
comment is written on top of it; without a C text its last event is an error. -/
theorem outcomes_agree [Composition] [EntryCodec] (request : BuildRequest) (disk : Disk) (settled : disk.Settled)
    (accepted : ((build request : DiskM BuildResult).run disk).1.failure = none) :
    let done := (build request : DiskM BuildResult).run disk
    let turns := request.turns (request.sources disk.workingDir) disk
    done.1.files = turns.map (·.file) ∧ done.2 = BuildRequest.diskAfter disk turns ∧
      (∀ front turn back, turns = front ++ turn :: back →
        turn.Agrees request ∧
        ((∀ later ∈ back, later.file.display ≠ turn.file.display) →
          lastEvent? done.1.events turn.file.display = turn.events.getLast?) ∧
        (request.Orderly disk.workingDir → request.cache = none → ∀ path ∈ turn.file.written, ∀ content,
          turn.disk.read path = .ok content → done.2.read path = .ok content)) ∧
      ∀ order, order.Perm (request.sources disk.workingDir) → ∀ front turn back,
        request.turns order disk = front ++ turn :: back → turn.Agrees request ∧
        (request.Orderly disk.workingDir → request.cache = none →
          (∀ raw, disk.read turn.file.source = .ok raw →
            (BuildRequest.diskAfter disk front).read turn.file.source = .ok raw) ∧
          ∀ path ∈ turn.file.written, ∀ content, turn.disk.read path = .ok content →
            (BuildRequest.diskAfter disk (request.turns order disk)).read path = .ok content) := by
  intro done turns
  obtain ⟨final, files, single, status, events⟩ := request.build_ends disk accepted
  have agree : ∀ order, ∀ turn ∈ request.turns order disk, turn.Agrees request := by
    intro order turn member
    obtain ⟨source, -, before, outcome⟩ := BuildRequest.turn_outcome member
    exact outcome.agrees
  refine ⟨files, final, fun front turn back split => ?_, fun order perm front turn back split =>
    ⟨agree order turn (by simp [split]), fun orderly noCache => orderly.any_order settled noCache single perm split⟩⟩
  have member : turn ∈ turns := by simp [split]
  refine ⟨agree _ turn member, fun apart => ?_, fun orderly noCache path inside content held => ?_⟩
  · obtain ⟨source, listed, before, outcome⟩ := BuildRequest.turn_outcome member
    have named : turn.file.display ≠ [] := by
      obtain ⟨path, -, rfl⟩ := List.mem_map.mp listed
      rw [outcome.told.1]
      exact displayName_ne_nil settled.rooted _ _
    rw [events, ← List.singleton_append, ← List.append_assoc]
    have later : ∀ other ∈ back, other.Agrees request := fun other inside =>
      agree _ other (show other ∈ turns by simp [split, inside])
    change lastEvent? (_ ++ (turns.flatMap _ ++ _)) _ = _
    rw [split]
    exact lastEvent?_turn front back (agree _ turn member) later apart named _ status outcome.told.2
  · rw [final]
    exact (orderly.any_order settled noCache single (.refl _) split).2 path inside content held

theorem BuildRequest.compiledFrom_passes [Composition] (request : BuildRequest) (source raw headerPath : Text) (steps : Nat)
    (holds : Text → Bool) :
    let settings := request.settingsFor headerPath
    let parsed := parseFile settings.parse 0 (FileContent.normalize raw).1
    let emitted (result : PassResult) : Text := (Emitter.emit ⟨parsed.program, result.insts, settings.emit⟩).text
    parsed.reports.isEmpty = true →
    ((Walk.collect parsed.program settings.depth { insts := { collisions := .once [] } }).expandWithin
      (.ofProgram parsed.program) settings.depth steps 0 0).any
        (fun walk => walk.result.reports.isEmpty && holds (emitted walk.result)) = true →
    (request.compiledFrom source raw headerPath).failed = false ∧
      ∃ text, (request.compiledFrom source raw headerPath).output = some text ∧ holds text = true := by
  intro settings parsed emitted clean ended
  have both := prepare_within _ _ (fun result => result.reports.isEmpty && holds (emitted result)) steps ended
  obtain ⟨quiet, held⟩ := Bool.and_eq_true_iff.mp both
  have verdict := (compileFile_verdict settings 0 ⟨Path.clean source, _, (FileContent.normalize raw).2⟩ fun _ => 0).trans
    (if_pos clean)
  refine ⟨(congrArg Verdict.failed verdict).trans ?_, _, congrArg Verdict.output verdict, held⟩
  show (!(prepare parsed.program settings.depth).reports.isEmpty) = false
  rw [quiet]
  rfl

theorem BuildRequest.Outcome.compiled [Composition] {request : BuildRequest} {source display raw output : Text} {before : Disk}
    (outcome : request.Outcome source display before built after) (noCache : request.cache = none)
    (found : before.read source = .ok raw) (chosen : (request.plan before.workingDir).outputFor source = .ok output) :
    ∃ file result, request.Compiled source display before file result ∧ file.outputPath = output ∧
      (result.output = (request.compiledFrom source raw file.headerPath).output ∧
        file.failed = (request.compiledFrom source raw file.headerPath).failed ∧ file.cached = false) ∧
      ((built.1 = file ∧ file.output? = none ∧ after = before) ∨ ∃ text, file.output? = some text ∧
        ((∃ problem, ((writeOutputs (request.texts file result text) : DiskM (Option Text)).run before).1 = some problem) ∨
          built.1 = file ∧ ∀ item ∈ request.texts file result text, after.Holds item.1 item.2)) := by
  have facts {file : FileResult} {result : CompileResult} (compiled : request.Compiled source display before file result) :
      file.outputPath = output ∧ result.output = (request.compiledFrom source raw file.headerPath).output ∧
        file.failed = (request.compiledFrom source raw file.headerPath).failed ∧ file.cached = false := by
    have fresh := compiled.uncached (.inr noCache)
    obtain ⟨other, read, output, -, failed⟩ := compiled.fresh fresh
    cases read.symm.trans found
    exact ⟨Except.ok.inj (compiled.chosen.symm.trans chosen), output, compiled.failed_iff.trans failed, fresh⟩
  cases outcome with
  | stopped named failed reason =>
    rcases reason with unread | unplaced
    · exact absurd found (unread _)
    · exact absurd chosen (unplaced _)
  | textless compiled none untouched =>
    exact ⟨_, _, compiled, (facts compiled).1, (facts compiled).2, .inl ⟨rfl, none, untouched noCache⟩⟩
  | unwritten compiled some named failed fault =>
    obtain ⟨between, same, wrong⟩ := fault
    rw [same noCache] at wrong
    exact ⟨_, _, compiled, (facts compiled).1, (facts compiled).2, .inr ⟨_, some, .inl ⟨_, wrong⟩⟩⟩
  | written compiled some held =>
    exact ⟨_, _, compiled, (facts compiled).1, (facts compiled).2, .inr ⟨_, some, .inr ⟨rfl, held⟩⟩⟩

def onlySource : Disk := { entries := [(["a.sc"], some "int x;\n")], workingDir := "/" }

private theorem onlySource_read : onlySource.read "a.sc" = .ok (Text.ofString "int x;\n") := by decide +kernel

def withCompanions : BuildRequest := { files := ["a.sc"], header := true, listInsts := true }

private theorem withCompanions_passes {display : Text}
    (outcome : withCompanions.Outcome "a.sc" display onlySource built after) :
    built.1.failed = false ∧ built.1.cached = false := by
  have chosen : (withCompanions.plan onlySource.workingDir).outputFor "a.sc" = .ok (Text.ofString "a.c") := by decide +kernel
  obtain ⟨file, result, compiled, path, ⟨-, failed, fresh⟩, ends⟩ := outcome.compiled rfl onlySource_read chosen
  have beside := compiled.beside
  rw [path] at beside
  obtain ⟨header, insts⟩ := Prod.mk.inj beside
  have passes := (withCompanions.compiledFrom_passes "a.sc" "int x;\n" "a.h" 1 (fun _ => true) (by decide +kernel)
    (by decide +kernel)).1
  rw [header] at failed
  rcases ends with ⟨rfl, -, -⟩ | ⟨text, some, ⟨problem, wrong⟩ | ⟨rfl, -⟩⟩
  · exact ⟨failed.trans passes, fresh⟩
  · obtain ⟨listed, given⟩ := compiled.lists some (by rw [insts]; decide)
    have texts : withCompanions.texts file result text = [(Text.ofString "a.c", text),
        (Text.ofString "a.h", result.header.getD []),
        (Text.ofString "a.insts", listed.dump (Option.some file.files) withCompanions.paths)] := by
      rw [BuildRequest.texts, given, path, header, insts]
      rfl
    rw [texts] at wrong
    cases wrong
  · exact ⟨failed.trans passes, fresh⟩

theorem withCompanions_recorded :
    let done := (build withCompanions : DiskM BuildResult).run onlySource
    onlySource.Settled ∧ done.1.failure = none ∧ ∃ file text, done.1.files = [file] ∧ file.failed = false ∧
      file.output? = some text ∧ done.2.read file.outputPath = .ok text ∧
      lastEvent? done.1.events file.display = some { file := file.display, stage := .write, status := .done } := by
  intro done
  have settled : onlySource.Settled := ⟨by decide, by decide⟩
  obtain ⟨passed, fresh⟩ := withCompanions_passes
    (withCompanions.buildFile_ends "a.sc" (displayName "/" [] "a.sc") onlySource)
  obtain ⟨files, final, all, -⟩ := outcomes_agree withCompanions onlySource settled rfl
  obtain ⟨agrees, last, -⟩ := all [] _ [] rfl
  obtain ⟨text, some⟩ := Option.isSome_iff_exists.mp (agrees.commented passed fresh rfl)
  obtain ⟨told, held, -⟩ := agrees.done passed text some
  refine ⟨settled, rfl, _, text, files, passed, some, ?_, (last (by simp)).trans told⟩
  rw [final]
  exact held

def blankSource : Disk := { entries := [(["a.sc"], some [])], workingDir := "/" }

def uncommented : BuildRequest := { files := ["a.sc"], compile := { emit := { noComment := true } } }

private theorem blankSource_outcome {display : Text}
    (outcome : uncommented.Outcome "a.sc" display blankSource built after) :
    built.1.failed = false ∧ built.1.problem = none ∧ built.1.outputPath = Text.ofString "a.c" ∧ built.1.output? = none ∧
      after = blankSource := by
  have chosen : (uncommented.plan blankSource.workingDir).outputFor "a.sc" = .ok (Text.ofString "a.c") := by decide +kernel
  obtain ⟨file, result, compiled, path, ⟨output, failed, -⟩, ends⟩ :=
    outcome.compiled rfl (show blankSource.read "a.sc" = .ok [] by decide +kernel) chosen
  obtain ⟨passes, text, same, empty⟩ :=
    uncommented.compiledFrom_passes "a.sc" [] [] 1 (·.isEmpty) (by decide +kernel) (by decide +kernel)
  have header : file.headerPath = [] := (Prod.mk.inj compiled.beside).1
  have none : file.output? = none := by
    rw [FileResult.output?, compiled.given, Option.bind_some, output, header, same, List.isEmpty_iff.mp empty]
    rfl
  rw [header] at failed
  rcases ends with ⟨rfl, -, untouched⟩ | ⟨text, some, -⟩
  · exact ⟨failed.trans passes, compiled.whole, path, none, untouched⟩
  · rw [none] at some
    cases some

/-- An empty source builds without a failure, but nothing is written for it, and the latest event about it is an error. -/
theorem blankSource_unwritten :
    let done := (build uncommented : DiskM BuildResult).run blankSource
    done.1.failure = none ∧ ∃ file, done.1.files = [file] ∧ file.failed = false ∧ file.problem = none ∧
      file.outputPath = Text.ofString "a.c" ∧ (∀ text, done.2.read file.outputPath ≠ .ok text) ∧
      lastEvent? done.1.events file.display = some { file := file.display, stage := .compile, status := .error } := by
  intro done
  let built := (uncommented.buildFile "a.sc" (displayName "/" [] "a.sc") : DiskM (FileResult × List BuildEvent)).run blankSource
  have outcome : uncommented.Outcome _ _ _ (built.1.1, built.1.2) built.2 := uncommented.buildFile_ends "a.sc" _ blankSource
  obtain ⟨passed, whole, output, none, same⟩ := blankSource_outcome outcome
  obtain ⟨final, files, -, status, events⟩ := uncommented.build_ends blankSource rfl
  refine ⟨rfl, built.1.1, files, passed, whole, output, fun text found => ?_, ?_⟩
  · have missing : blankSource.read "a.c" = .error ⟨"open", "a.c", .notFound⟩ := by decide +kernel
    have kept : done.2 = blankSource := final.trans same
    rw [kept, output, missing] at found
    cases found
  · have named : built.1.1.display ≠ [] := by
      rw [outcome.told.1]
      exact displayName_ne_nil (by decide) _ _
    rw [events, ← List.singleton_append, ← List.append_assoc]
    exact (lastEvent?_turn [] [] outcome.agrees (by simp) (by simp) named _ status outcome.told.2).trans
      (outcome.agrees.blank passed none)

def ontoItself : BuildRequest := { files := ["a.sc"], outputPath := "a.sc" }

private theorem ontoItself_outcome {display : Text} (outcome : ontoItself.Outcome "a.sc" display onlySource built after) :
    ∃ text, after.read "a.sc" = .ok text ∧ text ≠ Text.ofString "int x;\n" := by
  obtain ⟨file, result, compiled, path, ⟨output, -, -⟩, ends⟩ := outcome.compiled rfl onlySource_read rfl
  obtain ⟨-, text, same, different⟩ := ontoItself.compiledFrom_passes "a.sc" "int x;\n" [] 1
    (fun text => decide (text ∉ [[], Text.ofString "int x;\n"])) (by decide +kernel) (by decide +kernel)
  have other := of_decide_eq_true different
  simp only [List.mem_cons, List.not_mem_nil, or_false, not_or] at other
  obtain ⟨header, insts⟩ := Prod.mk.inj compiled.beside
  have given : file.output? = some text := by
    have header : file.headerPath = [] := header
    rw [FileResult.output?, compiled.given, Option.bind_some, output, header, same]
    simp [other.1]
  rcases ends with ⟨-, none, -⟩ | ⟨found, some, ends⟩
  · rw [given] at none
    cases none
  · cases given.symm.trans some
    have texts : ontoItself.texts file result text = [(Text.ofString "a.sc", text)] := by
      rw [BuildRequest.texts, header, insts, path]
      cases result.insts <;> rfl
    rw [texts] at ends
    rcases ends with ⟨problem, wrong⟩ | ⟨-, held⟩
    · cases wrong
    · exact ⟨text, (held _ List.mem_cons_self).1, other.2⟩

/-- A source is lost when its own path is given for the output. -/
theorem ontoItself_loses_source :
    onlySource.Settled ∧ onlySource.read "a.sc" = .ok (Text.ofString "int x;\n") ∧
      ∃ text, ((build ontoItself : DiskM BuildResult).run onlySource).2.read "a.sc" = .ok text ∧
        text ≠ Text.ofString "int x;\n" := by
  obtain ⟨final, -⟩ := ontoItself.build_ends onlySource rfl
  obtain ⟨text, held, different⟩ := ontoItself_outcome
    (ontoItself.buildFile_ends "a.sc" (displayName "/" [] "a.sc") onlySource)
  refine ⟨⟨by decide, by decide⟩, onlySource_read, text, ?_, different⟩
  rw [final]
  exact held

end GenericC
