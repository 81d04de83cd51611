import GenericC.Build
import GenericC.Proofs.SparedFiles

/-! What is read after files were written. A path that a file can be written at ends in a name, and that name is the last
one of the place. So files at paths with different last names do not touch each other, wherever their folders are. -/

namespace GenericC

namespace Path

theorem exists_folder (path : Text) : ∃ folder name, path = folder ++ name ∧ IsFolder folder ∧ slash ∉ name := by
  obtain ⟨folder, name, same, -, outside, isFolder⟩ := Text.exists_afterLast (· = slash) path
  refine ⟨folder, name, same, ?_, fun member => by simpa using outside slash member⟩
  exact isFolder.imp_right fun ⟨start, last, split, here⟩ => ⟨start, by rw [split, of_decide_eq_true here]⟩

theorem names_last {folder name : Text} (isFolder : IsFolder folder) (free : slash ∉ name) (some : folder ++ name ≠ [])
    (file : Disk.endsInSlash (folder ++ name) = false) : names (folder ++ name) = names folder ++ [name] := by
  have named : name ≠ [] := by
    rintro rfl
    rw [List.append_nil] at some file
    obtain ⟨start, rfl⟩ := isFolder.resolve_left some
    simp [Disk.endsInSlash] at file
  exact names_file isFolder ⟨named, free⟩

theorem names_ne_nil {path : Text} (some : path ≠ []) (file : Disk.endsInSlash path = false) : names path ≠ [] := by
  obtain ⟨folder, name, rfl, isFolder, free⟩ := exists_folder path
  rw [names_last isFolder free some file]
  simp

end Path

namespace Disk

theorem place_last {disk : Disk} {path : Text} {place : List Text} (found : disk.place path = .ok place)
    (file : namesFolder path = false) : place.getLast? = (Path.names path).getLast? ∧ place ≠ [] := by
  unfold namesFolder at file
  obtain ⟨noSlash, named⟩ := Bool.or_eq_false_iff.mp file
  unfold Disk.place at found
  split at found
  · cases found
  next some =>
    split at found
    · cases found
    have last := Path.names_ne_nil (by simpa using some) noSlash
    generalize Path.names path = parts at found last named
    generalize (if Path.isAbsolute path = true then [] else Path.names disk.workingDir) = start at found
    cases parts using List.reverseRecOn with
    | nil => exact absurd rfl last
    | append_singleton front name =>
      rw [List.getLast?_concat, Option.any_some] at named
      obtain ⟨notHere, notUp⟩ := Bool.or_eq_false_iff.mp named
      rw [List.foldlM_append] at found
      obtain ⟨folder, -, found⟩ := bind_eq_ok found
      rw [List.foldlM_cons] at found
      obtain ⟨last, stepped, found⟩ := bind_eq_ok found
      cases found
      rw [(step_eq_ok stepped).2, if_neg (of_decide_eq_false notHere), if_neg (of_decide_eq_false notUp)]
      simp

theorem spares_written {disk : Disk} {place : List Text} {content : Text} (notFolder : disk.entry? place ≠ some none) :
    Spares (· ≠ place) disk (disk.set place (some content)) :=
  spares_set notFolder fun different => absurd rfl different

theorem endsInSlash_of_file {path : Text} (file : namesFolder path = false) : endsInSlash path = false :=
  (Bool.or_eq_false_iff.mp file).1

theorem read_write {disk after : Disk} {path content : Text} (wrote : disk.write path content = .ok after) :
    after.read path = .ok content := by
  obtain ⟨place, found, -, file, notFolder, rfl⟩ := write_eq_ok.mp wrote
  refine read_eq_ok.mpr ⟨place, place_spared (spares_written notFolder) found, ?_, endsInSlash_of_file file⟩
  simp [ entry?, set, (place_last found file).2]

theorem read_write_other {disk after : Disk} {path content other text : Text}
    (wrote : disk.write path content = .ok after) (file : namesFolder other = false)
    (apart : (Path.names other).getLast? ≠ (Path.names path).getLast?) (found : disk.read other = .ok text) :
    after.read other = .ok text := by
  obtain ⟨place, led, -, isFile, notFolder, rfl⟩ := write_eq_ok.mp wrote
  obtain ⟨kept, there, entry, ends⟩ := read_eq_ok.mp found
  have different : kept ≠ place := by
    rintro rfl
    exact apart ((place_last there file).1.symm.trans (place_last led isFile).1)
  have spares : Spares (· ≠ place) disk (disk.set place (some content)) := spares_written notFolder
  exact read_eq_ok.mpr ⟨kept, place_spared spares there, spares.files kept text different entry, ends⟩

theorem read_makeFolders {disk after : Disk} {path other text : Text} (made : disk.makeFolders path = .ok after)
    (found : disk.read other = .ok text) : after.read other = .ok text := by
  obtain ⟨kept, there, entry, ends⟩ := read_eq_ok.mp found
  have spares : Spares (fun _ => True) disk after := spares_makeFolders made
  exact read_eq_ok.mpr ⟨kept, place_spared spares there, spares.files kept text trivial entry, ends⟩

end Disk

namespace DiskM

/-- Run on a disk, a program ends with a value and a disk of which something holds. -/
def Ends {α : Type} (program : DiskM α) (disk : Disk) (post : α → Disk → Prop) : Prop :=
  post (program.run disk).1 (program.run disk).2

variable {α β : Type} {disk : Disk}

theorem Ends.pure {value : α} {post : α → Disk → Prop} (holds : post value disk) : Ends (Pure.pure value) disk post := holds

theorem Ends.bind {program : DiskM α} {next : α → DiskM β} {middle : α → Disk → Prop} {post : β → Disk → Prop}
    (early : Ends program disk middle) (late : ∀ value between, middle value between → Ends (next value) between post) :
    Ends (program >>= next) disk post := late _ _ early

theorem Ends.mono {program : DiskM α} {post weaker : α → Disk → Prop} (ends : Ends program disk post)
    (holds : ∀ value after, post value after → weaker value after) : Ends program disk weaker := holds _ _ ends

theorem Ends.ran {program : DiskM α} {post : α → Disk → Prop} (ends : Ends program disk post) :
    Ends program disk fun value after => program.run disk = (value, after) ∧ post value after := ⟨rfl, ends⟩

theorem Ends.workingDir : Ends (Files.workingDir : DiskM Text) disk fun folder after =>
    folder = disk.workingDir ∧ after = disk := ⟨rfl, rfl⟩

theorem Ends.read (path : Text) : Ends (Files.read path : DiskM (Except FileError Text)) disk fun found after =>
    found = disk.read path ∧ after = disk := ⟨rfl, rfl⟩

theorem Ends.makeFolders (path : Text) : Ends (Files.makeFolders path : DiskM (Except FileError Unit)) disk fun made after =>
    made = .ok () → disk.makeFolders path = .ok after := by
  rcases makeFolders_run path disk with ⟨error, run⟩ | ⟨after, made, run⟩
  · rw [Ends, run]
    exact fun success => by cases success
  · rw [Ends, run]
    exact fun _ => made

theorem Ends.write (path content : Text) : Ends (Files.write path content : DiskM (Except FileError Unit)) disk
    fun wrote after => wrote = .ok () → disk.write path content = .ok after := by
  rcases write_run path content disk with ⟨error, run⟩ | ⟨after, wrote, run⟩
  · rw [Ends, run]
    exact fun success => by cases success
  · rw [Ends, run]
    exact fun _ => wrote

end DiskM

open DiskM (Ends)

/-- Two paths end in different names, if both can be the paths of files. -/
def Path.LastApart (first second : Text) : Prop :=
  Disk.namesFolder first = false → Disk.namesFolder second = false → (Path.names first).getLast? ≠ (Path.names second).getLast?

def Disk.Holds (disk : Disk) (path content : Text) : Prop :=
  disk.read path = .ok content ∧ Disk.namesFolder path = false

theorem writeOutput_ends (path content : Text) (disk : Disk) :
    Ends (writeOutput path content : DiskM (Option Text)) disk fun problem after => problem = none →
      after.Holds path content ∧
        ∀ other text, Path.LastApart other path → disk.Holds other text → after.Holds other text := by
  refine (Ends.makeFolders _).bind fun made between success => ?_
  cases made with
  | error error => exact .pure fun none => by cases none
  | ok _ =>
    refine (Ends.write path content).bind fun wrote after done => ?_
    cases wrote with
    | error error => exact .pure fun none => by cases none
    | ok _ =>
      refine .pure fun _ => ?_
      have written := done rfl
      obtain ⟨-, -, -, file, -, -⟩ := Disk.write_eq_ok.mp written
      refine ⟨⟨Disk.read_write written, file⟩, fun other text apart held => ⟨?_, held.2⟩⟩
      exact Disk.read_write_other written held.2 (apart held.2 file) (Disk.read_makeFolders (success rfl) held.1)

theorem writeOutputs_ends {texts : List (Text × Text)} (apart : texts.Pairwise fun first second => Path.LastApart first.1 second.1)
    (disk : Disk) :
    Ends (writeOutputs texts : DiskM (Option Text)) disk fun problem after => problem = none →
      (∀ text ∈ texts, after.Holds text.1 text.2) ∧
        ∀ other content, (∀ text ∈ texts, Path.LastApart other text.1) → disk.Holds other content → after.Holds other content := by
  induction texts generalizing disk with
  | nil => exact .pure fun _ => ⟨by simp, fun _ _ _ held => held⟩
  | cons text rest ih =>
    obtain ⟨here, later⟩ := List.pairwise_cons.mp apart
    refine (writeOutput_ends text.1 text.2 disk).bind fun problem between first => ?_
    cases problem with
    | some problem => exact .pure fun none => by cases none
    | none =>
      obtain ⟨written, kept⟩ := first rfl
      refine (ih later between).mono fun problem after second none => ?_
      obtain ⟨all, still⟩ := second none
      refine ⟨List.forall_mem_cons.mpr ⟨still _ _ here written, all⟩, fun other content away held => ?_⟩
      obtain ⟨notHere, notLater⟩ := List.forall_mem_cons.mp away
      exact still other content notLater (kept other content notHere held)

end GenericC
