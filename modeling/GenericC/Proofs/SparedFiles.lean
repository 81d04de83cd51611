import GenericC.Files.Disk
import GenericC.Proofs.PathNames

/-! What programs do to a disk. Folders stay folders, and a file stays as it is unless something is written at its
place. -/

namespace GenericC

variable {path : Text}

namespace Disk

variable {disk : Disk} {place : List Text}

theorem bind_eq_ok {α β : Type} {first : Except FileFault α} {next : α → Except FileFault β} {last : β}
    (ended : (first >>= next) = .ok last) : ∃ value, first = .ok value ∧ next value = .ok last := by
  cases first with
  | error fault => cases ended
  | ok value => exact ⟨value, rfl, ended⟩

theorem step_eq_ok {next : List Text} {name : Text} (stepped : disk.step place name = .ok next) :
    disk.entry? place = some none ∧ next =
      if name = Text.ofString "." then place else if name = Text.ofString ".." then place.dropLast else place ++ [name] := by
  unfold step at stepped
  split at stepped
  · cases stepped
  · cases stepped
  next folder => grind

theorem step_addName {next : List Text} {name : Text} (all : ∀ part ∈ place, Path.LeadsDown part)
    (stepped : disk.step place name = .ok next) : next.reverse = Path.addName true place.reverse name := by
  obtain ⟨-, rfl⟩ := step_eq_ok stepped
  split
  next here => rw [here, Path.addName_here]
  next notHere =>
    split
    next up =>
      subst up
      cases place using List.reverseRecOn with
      | nil => rfl
      | append_singleton front last =>
        have down := all last (by simp)
        rw [List.dropLast_concat, List.reverse_append, List.reverse_singleton, List.singleton_append,
          Path.addName_up down.notUp]
    next notUp =>
      rw [Path.addName_down notHere notUp, List.reverse_append]
      rfl

theorem steps_addName {names last : List Text} (named : ∀ name ∈ names, Path.IsName name)
    (all : ∀ part ∈ place, Path.LeadsDown part) (stepped : names.foldlM disk.step place = .ok last) :
    last.reverse = names.foldl (Path.addName true) place.reverse := by
  induction names generalizing place with
  | nil =>
    cases stepped
    rfl
  | cons name rest ih =>
    rw [List.foldlM_cons] at stepped
    obtain ⟨next, first, stepped⟩ := bind_eq_ok stepped
    obtain ⟨here, later⟩ := List.forall_mem_cons.mp named
    have same := step_addName all first
    have down : ∀ part ∈ next, Path.LeadsDown part := by
      intro part member
      have kept : ∀ other ∈ Path.addName true place.reverse name, Path.LeadsDown other :=
        Path.addName_all here (by simpa using all)
      rw [← same] at kept
      exact kept part (by simpa using member)
    rw [ih later down stepped, same]
    rfl

/-- The working folder is given by its shortest path. -/
structure Settled (disk : Disk) : Prop where
  rooted : Path.isAbsolute disk.workingDir = true
  clean : Path.clean disk.workingDir = disk.workingDir

theorem Settled.of_same {after : Disk} (settled : disk.Settled) (same : after.workingDir = disk.workingDir) :
    after.Settled :=
  ⟨by rw [same]; exact settled.rooted, by rw [same]; exact settled.clean⟩

theorem Settled.names (settled : disk.Settled) : ∀ name ∈ Path.names disk.workingDir, Path.LeadsDown name := by
  rw [← settled.clean, Path.names_clean settled.rooted]
  exact Path.normalNames_leadsDown disk.workingDir

theorem place_route (settled : disk.Settled) (found : disk.place path = .ok place) :
    place.reverse = Path.route disk.workingDir path := by
  unfold Disk.place at found
  split at found
  · cases found
  · split at found
    · cases found
    · unfold Path.route
      split at found
      next rooted =>
        rw [if_pos rooted, steps_addName (fun _ => Path.isName_of_mem) (by simp) found]
        rfl
      next relative =>
        rw [if_neg relative, steps_addName (fun _ => Path.isName_of_mem) settled.names found, List.foldl_append,
          Path.foldl_addName_down settled.names, List.append_nil]

/-- Folders stay, and so do the files at some places. -/
structure Spares (spared : List Text → Prop) (before after : Disk) : Prop where
  workingDir : after.workingDir = before.workingDir
  folders : ∀ place, before.entry? place = some none → after.entry? place = some none
  files : ∀ place content, spared place → before.entry? place = some (some content) →
    after.entry? place = some (some content)

section
variable {spared : List Text → Prop} {first second third : Disk}
variable {after : Disk} {content : Text}

theorem Spares.refl (disk : Disk) : Spares spared disk disk := ⟨rfl, fun _ found => found, fun _ _ _ found => found⟩

theorem Spares.trans (early : Spares spared first second) (late : Spares spared second third) :
    Spares spared first third :=
  ⟨late.workingDir.trans early.workingDir, fun place found => late.folders place (early.folders place found),
    fun place content kept found => late.files place content kept (early.files place content kept found)⟩

theorem entry_set (disk : Disk) (place : List Text) (content : Option Text) {other : List Text} (different : other ≠ place) :
    Disk.entry? (disk.set place content) other = disk.entry? other := by
  unfold entry? set
  split
  · rfl
  · rw [List.find?_cons_of_neg (by simpa using Ne.symm different), List.find?_filter]
    congr 2
    funext entry
    grind

theorem spares_set {content : Option Text} (notFolder : disk.entry? place ≠ some none)
    (free : spared place → disk.entry? place = none) : Spares spared disk (disk.set place content) := by
  refine ⟨rfl, fun other found => ?_, fun other text kept found => ?_⟩
  · have different : other ≠ place := by
      rintro rfl
      exact notFolder found
    rw [entry_set _ _ _ different, found]
  · have different : other ≠ place := by
      rintro rfl
      rw [free kept] at found
      cases found
    rw [entry_set _ _ _ different, found]

theorem write_eq_ok :
    disk.write path content = .ok after ↔ ∃ place, disk.place path = .ok place ∧
      disk.entry? place.dropLast = some none ∧ namesFolder path = false ∧ disk.entry? place ≠ some none ∧
      disk.set place (some content) = after := by
  unfold Disk.write
  cases found : disk.place path with
  | error fault => simp [bind, Except.bind]
  | ok place =>
    dsimp only [bind, Except.bind, pure, Except.pure, throw, throwThe, MonadExceptOf.throw]
    cases parent : disk.entry? place.dropLast with
    | none => simp [parent]
    | some kept =>
      cases kept with
      | some text => simp [parent, Except.pure]
      | none =>
        cases folder : namesFolder path with
        | true => simp [Except.pure]
        | false => by_cases there : disk.entry? place = some none <;> simp [there, parent, Except.pure]

theorem spares_write (settled : disk.Settled)
    (free : ∀ place, place.reverse = Path.route disk.workingDir path → ¬ spared place)
    (wrote : disk.write path content = .ok after) : Spares spared disk after := by
  obtain ⟨place, found, -, -, notFolder, rfl⟩ := write_eq_ok.mp wrote
  exact spares_set notFolder fun kept => absurd kept (free place (place_route settled found))

theorem spares_makeFolder (made : disk.makeFolder path = .ok after) : Spares spared disk after := by
  obtain ⟨place, -, made⟩ := bind_eq_ok made
  split at made
  · cases made
  · cases made
  · cases made
  next empty =>
    cases made
    exact spares_set (by simp [empty]) fun _ => empty

theorem spares_makeAll {paths : List Text} (made : disk.makeAll paths = .ok after) : Spares spared disk after := by
  induction paths generalizing disk with
  | nil =>
    cases made
    exact .refl _
  | cons path rest ih =>
    unfold makeAll at made
    split at made
    · exact ih made
    · cases made
    · split at made
      next next first => exact (spares_makeFolder first).trans (ih made)
      · cases made

theorem spares_makeFolders (made : disk.makeFolders path = .ok after) : Spares spared disk after := by
  unfold makeFolders at made
  split at made
  · cases made
    exact .refl _
  · cases made
  · exact spares_makeAll made

theorem steps_spared (spares : Spares spared first second) {names last : List Text}
    (stepped : names.foldlM first.step place = .ok last) : names.foldlM second.step place = .ok last := by
  induction names generalizing place with
  | nil => exact stepped
  | cons name rest ih =>
    rw [List.foldlM_cons] at stepped ⊢
    obtain ⟨next, here, stepped⟩ := bind_eq_ok stepped
    have folder := (step_eq_ok here).1
    have same : second.step place name = .ok next := by
      unfold step at here ⊢
      rw [spares.folders place folder]
      rwa [folder] at here
    rw [same]
    exact ih stepped

theorem read_eq_ok :
    disk.read path = .ok content ↔
      ∃ place, disk.place path = .ok place ∧ disk.entry? place = some (some content) ∧ endsInSlash path = false := by
  unfold Disk.read look
  cases found : disk.place path with
  | error fault => simp [bind, Except.bind]
  | ok place =>
    dsimp only [bind, Except.bind]
    cases entry : disk.entry? place with
    | none => simp [entry, throw, throwThe, MonadExceptOf.throw]
    | some kept =>
      cases kept with
      | none => simp [entry, pure, Except.pure]
      | some text =>
        cases ends : endsInSlash path with
        | true => simp [throw, throwThe, MonadExceptOf.throw]
        | false => simp [entry, pure, Except.pure]

theorem place_spared (spares : Spares spared first second) (found : first.place path = .ok place) :
    second.place path = .ok place := by
  unfold Disk.place at found ⊢
  rw [spares.workingDir]
  split
  next empty =>
    rw [if_pos empty] at found
    cases found
  next some =>
    rw [if_neg some] at found
    split
    next zero =>
      rw [if_pos zero] at found
      cases found
    next clear =>
      rw [if_neg clear] at found
      exact steps_spared spares found

theorem read_spared (settled : first.Settled) (spares : Spares spared first second)
    (kept : ∀ place, place.reverse = Path.route first.workingDir path → spared place)
    (found : first.read path = .ok content) : second.read path = .ok content := by
  obtain ⟨place, led, entry, ends⟩ := read_eq_ok.mp found
  exact read_eq_ok.mpr ⟨place, place_spared spares led,
    spares.files place content (kept place (place_route settled led)) entry, ends⟩

end
end Disk

namespace DiskM

/-- Run on a disk, a program spares files and returns a value with a property. -/
def Meets (spared : List Text → Prop) (current : Text) {α : Type} (program : DiskM α) (post : α → Prop) : Prop :=
  ∀ disk : Disk, disk.Settled → disk.workingDir = current →
    Disk.Spares spared disk (program.run disk).2 ∧ post (program.run disk).1

variable {spared : List Text → Prop} {current : Text} {α β : Type}

theorem Meets.pure {value : α} {post : α → Prop} (holds : post value) : Meets spared current (Pure.pure value) post :=
  fun disk _ _ => ⟨.refl disk, holds⟩

theorem Meets.bind {program : DiskM α} {next : α → DiskM β} {middle : α → Prop} {post : β → Prop}
    (early : Meets spared current program middle)
    (late : ∀ value, middle value → Meets spared current (next value) post) :
    Meets spared current (program >>= next) post := by
  intro disk settled here
  obtain ⟨spares, holds⟩ := early disk settled here
  obtain ⟨more, result⟩ := late _ holds _ (settled.of_same spares.workingDir) (spares.workingDir.trans here)
  exact ⟨spares.trans more, result⟩

theorem Meets.workingDir : Meets spared current (Files.workingDir : DiskM Text) (· = current) :=
  fun disk _ here => ⟨.refl disk, here⟩

theorem Meets.read (path : Text) : Meets spared current (Files.read path : DiskM (Except FileError Text)) fun _ => True :=
  fun disk _ _ => ⟨.refl disk, trivial⟩

theorem makeFolders_run (path : Text) (disk : Disk) :
    (∃ error, (Files.makeFolders path : DiskM (Except FileError Unit)).run disk = (.error error, disk)) ∨
      ∃ after, disk.makeFolders path = .ok after ∧
        (Files.makeFolders path : DiskM (Except FileError Unit)).run disk = (.ok (), after) := by
  cases made : disk.makeFolders path with
  | error error => exact .inl ⟨error, by simp [Files.makeFolders, made]; rfl⟩
  | ok after => exact .inr ⟨after, rfl, by simp [Files.makeFolders, made]; rfl⟩

theorem write_run (path content : Text) (disk : Disk) :
    (∃ error, (Files.write path content : DiskM (Except FileError Unit)).run disk = (.error error, disk)) ∨
      ∃ after, disk.write path content = .ok after ∧
        (Files.write path content : DiskM (Except FileError Unit)).run disk = (.ok (), after) := by
  cases wrote : disk.write path content with
  | error fault => exact .inl ⟨_, by simp [Files.write, wrote]; rfl⟩
  | ok after => exact .inr ⟨after, rfl, by simp [Files.write, wrote]; rfl⟩

theorem Meets.makeFolders (path : Text) :
    Meets spared current (Files.makeFolders path : DiskM (Except FileError Unit)) fun _ => True := by
  intro disk _ _
  rcases makeFolders_run path disk with ⟨error, run⟩ | ⟨after, made, run⟩
  · rw [run]
    exact ⟨.refl disk, trivial⟩
  · rw [run]
    exact ⟨Disk.spares_makeFolders made, trivial⟩

theorem Meets.write (content : Text)
    (free : ∀ place : List Text, place.reverse = Path.route current path → ¬ spared place) :
    Meets spared current (Files.write path content : DiskM (Except FileError Unit)) fun _ => True := by
  intro disk settled here
  rcases write_run path content disk with ⟨error, run⟩ | ⟨after, wrote, run⟩
  · rw [run]
    exact ⟨.refl disk, trivial⟩
  · rw [run]
    exact ⟨Disk.spares_write settled (here ▸ free) wrote, trivial⟩

end DiskM
end GenericC
