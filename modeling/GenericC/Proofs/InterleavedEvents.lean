import GenericC.Build.Progress
import Mathlib.Data.List.Induction
import Mathlib.Data.List.Nodup

/-! Events of a build that reach the view in some order. Each file is shown by its own events alone, and the header by
those of the whole build, so it does not matter how the events of several files are mixed. -/

namespace GenericC

def BuildEvent.changes (event : BuildEvent) : Bool :=
  [FileState.queued, .loading, .compiling, .writing, .done, .failed].any fun state => state.after event ≠ state

def BuildEvent.ends (event : BuildEvent) : Bool := event.status = .error || event.status = .done && event.stage = .write

def lastChange? (events : List BuildEvent) : Option BuildEvent := (events.filter (·.changes)).getLast?

theorem after_of_not_changes {event : BuildEvent} (none : event.changes = false) (state : FileState) :
    state.after event = state := by
  have all := List.any_eq_false.mp none
  cases state <;> simpa using all _ (by simp)

theorem isFinished_after {event : BuildEvent} (changes : event.changes = true) (state : FileState) :
    (state.after event).isFinished = event.ends := by
  obtain ⟨file, stage, status, problem, cached⟩ := event
  cases status <;> cases stage <;> revert changes <;> simp [BuildEvent.changes, FileState.after, FileState.working?,
    FileState.isFinished, BuildEvent.ends]

theorem isFinished_foldl (events : List BuildEvent) :
    (events.foldl FileState.after .queued).isFinished = (lastChange? events).any (·.ends) := by
  induction events using List.reverseRecOn with
  | nil => rfl
  | append_singleton events last ih =>
    rw [List.foldl_append, lastChange?, List.filter_append]
    by_cases changes : last.changes = true
    · simp [changes, isFinished_after changes]
    · have none := Bool.eq_false_iff.mpr changes
      simp [none, after_of_not_changes none, ih, lastChange?]

namespace ProgressItem

theorem foldl_apply (item : ProgressItem) (events : List BuildEvent) : (events.foldl apply item).path = item.path ∧
    (events.foldl apply item).state = events.foldl FileState.after item.state := by
  induction events generalizing item with
  | nil => exact ⟨rfl, rfl⟩
  | cons event events ih => exact ih (item.apply event)

def shown (item : ProgressItem) (events : List BuildEvent) : List BuildEvent :=
  if item.path = [] then [] else events.filter (·.file = item.path)

end ProgressItem

namespace Progress

theorem position?_some {progress : Progress} {file : Text} {position : Nat}
    (found : progress.position? file = some position) :
    ∃ item, progress.items[position]? = some item ∧ item.path = file := by
  obtain ⟨back, entry, rfl⟩ := Option.map_eq_some_iff.mp found
  obtain ⟨inside, same, -⟩ := List.findIdx?_eq_some_iff_getElem.mp entry
  rw [List.getElem_reverse] at same
  exact ⟨_, List.getElem?_eq_getElem _, of_decide_eq_true same⟩

theorem position?_none {progress : Progress} {file : Text} (missing : progress.position? file = none) :
    ∀ item ∈ progress.items, item.path ≠ file := by
  intro item member
  have none := List.findIdx?_eq_none_iff.mp (Option.map_eq_none_iff.mp missing) item (List.mem_reverse.mpr member)
  exact of_decide_eq_false none

theorem apply_items {progress : Progress} (distinct : (progress.items.map (·.path)).Nodup) (event : BuildEvent) :
    (progress.apply event).items =
      progress.items.map fun item => if event.file = item.path ∧ item.path ≠ [] then item.apply event else item := by
  have untouched (none : ∀ item ∈ progress.items, ¬ (event.file = item.path ∧ item.path ≠ [])) : progress.items =
      progress.items.map fun item => if event.file = item.path ∧ item.path ≠ [] then item.apply event else item := by
    conv_lhs => rw [← List.map_id' progress.items]
    exact List.map_congr_left fun item member => (if_neg (none item member)).symm
  unfold apply
  by_cases whole : event.file = []
  · rw [if_pos (List.isEmpty_iff.mpr whole)]
    exact untouched fun item _ shown => shown.2 (shown.1.symm.trans whole)
  · rw [if_neg (mt List.isEmpty_iff.mp whole)]
    cases found : progress.position? event.file with
    | none => exact untouched fun item member shown => position?_none found item member shown.1.symm
    | some position =>
      obtain ⟨item, entry, same⟩ := position?_some found
      apply List.ext_getElem?
      intro index
      dsimp only
      rw [List.getElem?_modify, List.getElem?_map]
      by_cases here : position = index
      · subst here
        simp [entry, same, whole]
      · cases other : progress.items[index]? with
        | none => rfl
        | some current =>
          have apart : event.file ≠ current.path := by
            intro again
            have inside : position < (progress.items.map (·.path)).length := by
              rw [List.length_map]
              exact (List.getElem?_eq_some_iff.mp entry).1
            apply here
            apply (List.getElem?_inj inside distinct).mp
            simp [entry, other, same, again]
          simp [apart, here]

theorem foldl_items {progress : Progress} (distinct : (progress.items.map (·.path)).Nodup) (events : List BuildEvent) :
    (events.foldl apply progress).items =
      progress.items.map fun item => (item.shown events).foldl ProgressItem.apply item := by
  induction events generalizing progress with
  | nil => simp [ProgressItem.shown]
  | cons event events ih =>
    have paths : (progress.apply event).items.map (·.path) = progress.items.map (·.path) := by
      rw [apply_items distinct, List.map_map]
      refine List.map_congr_left fun item _ => ?_
      dsimp only [Function.comp]
      split <;> rfl
    rw [List.foldl_cons, ih (paths ▸ distinct), apply_items distinct, List.map_map]
    refine List.map_congr_left fun item _ => ?_
    dsimp only [Function.comp]
    by_cases here : event.file = item.path
    · by_cases none : item.path = []
      · simp [none, ProgressItem.shown]
      · simp [here, none, ProgressItem.shown, ProgressItem.apply]
    · simp [here, ProgressItem.shown]

theorem foldl_header {progress other : Progress} (same : progress.header = other.header) (events : List BuildEvent) :
    (events.foldl apply progress).header = ((events.filter (·.file = [])).foldl apply other).header := by
  induction events generalizing progress other with
  | nil => exact same
  | cons event events ih =>
    by_cases whole : event.file = []
    · rw [List.filter_cons_of_pos (by simpa using whole)]
      exact ih (by simp [apply, whole])
    · rw [List.filter_cons_of_neg (by simpa using whole)]
      have kept : (progress.apply event).header = progress.header := by
        rw [apply, if_neg (mt List.isEmpty_iff.mp whole)]
        split <;> rfl
      exact ih (kept.trans same)

end Progress

/-- However the events of a build are mixed, as long as those of each file keep their order the view is the same. It
counts a file as finished when its last change was the end of writing or an error. -/
theorem interleavings_agree (title : Text) {files : List Text} (distinct : files.Nodup) {first second : List BuildEvent}
    (same : ∀ file, first.filter (·.file = file) = second.filter (·.file = file)) :
    let shown (events : List BuildEvent) := events.foldl Progress.apply (.ofFiles title files)
    (shown first).items = (shown second).items ∧ (shown first).header = (shown second).header ∧
      (shown first).summary = (shown second).summary ∧
      (shown first).items.map (·.path) = files ∧
      Text.concat [Text.ofNat ((shown first).items.filter (·.state.isFinished)).length, "/"] <+: (shown first).summary ∧
      ∀ item ∈ (shown first).items, item.state.isFinished = true ↔
        item.path ≠ [] ∧ ∃ event, lastChange? (first.filter (·.file = item.path)) = some event ∧ event.ends = true := by
  intro shown
  have start : (Progress.ofFiles title files).items.map (·.path) = files := by
    rw [Progress.ofFiles, List.map_map]
    exact List.map_id files
  have lines (events : List BuildEvent) := Progress.foldl_items (start.symm ▸ distinct) events
  have items : (shown first).items = (shown second).items := by
    simp only [shown, lines, ProgressItem.shown, same]
  refine ⟨items, ?_, ?_, ?_, ?_, ?_⟩
  · exact (Progress.foldl_header rfl first).trans (same [] ▸ (Progress.foldl_header rfl second).symm)
  · unfold Progress.summary
    rw [items]
  · rw [lines, List.map_map]
    exact (List.map_congr_left fun item _ => (ProgressItem.foldl_apply item _).1).trans start
  · exact ⟨Text.concat [_, _, _], (List.flatMap_append ..).symm⟩
  · intro item member
    rw [lines] at member
    obtain ⟨before, among, rfl⟩ := List.mem_map.mp member
    obtain ⟨path, -, rfl⟩ := List.mem_map.mp among
    rw [(ProgressItem.foldl_apply _ _).1, (ProgressItem.foldl_apply _ _).2, isFinished_foldl]
    by_cases none : path = []
    · simp [ProgressItem.shown, none, lastChange?]
    · simp [ProgressItem.shown, none, Option.any_eq_true]

/-- Two workers, and the one that fails is ahead or behind. -/
theorem interleavings_agree_two :
    let tell (file : Text) (stage : BuildStage) (status : BuildStatus) : BuildEvent := { file, stage, status }
    let first := [tell "a" .load .working, tell "b" .load .error, tell "a" .write .done, tell [] .build .done]
    let second := [tell "b" .load .error, tell [] .build .done, tell "a" .load .working, tell "a" .write .done]
    let shown (events : List BuildEvent) := events.foldl Progress.apply (.ofFiles "" ["a", "b"])
    (shown first).summary = (shown second).summary ∧ (shown first).summary = Text.ofString "2/2 files: 1 failed" := by
  intro tell first second shown
  have same (file : Text) : first.filter (·.file = file) = second.filter (·.file = file) := by
    by_cases a : Text.ofString "a" = file
    · rw [← a]
      decide
    · by_cases b : Text.ofString "b" = file
      · rw [← b]
        decide
      · simp [first, second, tell, a, b, List.filter_cons]
  exact ⟨(interleavings_agree "" (by decide) same).2.2.1, by decide +kernel⟩

end GenericC
