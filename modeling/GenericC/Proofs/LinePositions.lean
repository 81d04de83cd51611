import GenericC.Source.File
import GenericC.Proofs.TextSplits

/-! Lines and columns. A line lies between two newlines, and the offsets of the newlines say where: the number of
newlines before an offset is the number of its line, and the distance from the last of them is its column. So the lines
of a file make up its content, and an offset is found again at its line and column. -/

namespace GenericC

abbrev newline : UInt8 := Text.byte '\n'

/-- The offsets of the newlines of a text that begins at some offset. -/
def Text.breaksFrom (start : Nat) (t : Text) : List Nat := ((t.zipIdx start).filter (·.1 = newline)).map (·.2)

namespace Text

theorem breaksFrom_append (start : Nat) (front back : Text) :
    breaksFrom start (front ++ back) = breaksFrom start front ++ breaksFrom (start + front.length) back := by
  simp [breaksFrom, List.zipIdx_append]

theorem breaksFrom_newline (start : Nat) (late : Text) :
    breaksFrom start (newline :: late) = start :: breaksFrom (start + 1) late := by
  simp [breaksFrom, List.zipIdx_cons]

theorem length_breaksFrom (start : Nat) (t : Text) : (breaksFrom start t).length = t.count newline := by
  rw [breaksFrom, List.length_map, ← List.countP_eq_length_filter, List.count]
  nth_rewrite 2 [← List.zipIdx_map_fst start t]
  rw [List.countP_map]
  rfl

theorem breaksFrom_bounds {start place : Nat} {t : Text} (member : place ∈ breaksFrom start t) :
    start ≤ place ∧ place < start + t.length := by
  obtain ⟨item, found, rfl⟩ := List.mem_map.mp member
  have := List.mem_zipIdx (List.mem_filter.mp found).1
  omega

end Text

/-- A line between what stands before and behind it. -/
structure LineSplit (content front line back : Text) : Prop where
  whole : content = front ++ line ++ back
  free : newline ∉ line
  opens : front = [] ∨ ∃ early, front = early ++ [newline]
  closes : back = [] ∨ ∃ late, back = newline :: late

namespace LineSplit

variable {content front line back : Text} {offset : Nat}

theorem breaks (split : LineSplit content front line back) : Text.breaksFrom 0 content =
    Text.breaksFrom 0 front ++ Text.breaksFrom (front.length + line.length) back := by
  have none : Text.breaksFrom (0 + front.length) line = [] := by
    rw [← List.length_eq_zero_iff, Text.length_breaksFrom, List.count_eq_zero]
    exact split.free
  rw [split.whole, Text.breaksFrom_append, Text.breaksFrom_append, none, List.append_nil, List.length_append, Nat.zero_add]

theorem length_le (split : LineSplit content front line back) : front.length + line.length ≤ content.length := by
  rw [split.whole, List.length_append, List.length_append]
  omega

theorem front_nil (split : LineSplit content front line back) (none : front.count newline = 0) : front = [] := by
  rcases split.opens with rfl | ⟨early, rfl⟩
  · rfl
  · simp at none

theorem opened (split : LineSplit content front line back) (behind : 0 < front.count newline) :
    (Text.breaksFrom 0 content)[front.count newline - 1]? = some (front.length - 1) := by
  rcases split.opens with rfl | ⟨early, rfl⟩
  · cases behind
  · have before : ((early ++ [newline]).count newline - 1) = (Text.breaksFrom 0 early).length := by
      rw [Text.length_breaksFrom, List.count_append, List.count_singleton_self, Nat.add_sub_cancel]
    rw [split.breaks, Text.breaksFrom_append, before, List.append_assoc, List.getElem?_append_right (Nat.le_refl _),
      Nat.sub_self, Text.breaksFrom_newline, List.length_append, Nat.zero_add]
    rfl

theorem closed (split : LineSplit content front line back) (more : front.count newline < content.count newline) :
    (Text.breaksFrom 0 content)[front.count newline]? = some (front.length + line.length) := by
  have before := Text.length_breaksFrom 0 front
  rcases split.closes with rfl | ⟨late, rfl⟩
  · rw [← before, ← Text.length_breaksFrom 0 content, split.breaks, List.length_append] at more
    exact absurd more (Nat.lt_irrefl _)
  · rw [split.breaks, ← before, List.getElem?_append_right (Nat.le_refl _), Nat.sub_self, Text.breaksFrom_newline]
    rfl

theorem last (split : LineSplit content front line back) (none : content.count newline ≤ front.count newline) :
    front.length + line.length = content.length := by
  rcases split.closes with rfl | ⟨late, rfl⟩
  · rw [split.whole, List.append_nil, List.length_append]
  · rw [split.whole] at none
    simp only [List.count_append, List.count_cons_self] at none
    omega

theorem slice (split : LineSplit content front line back) :
    Text.slice? content front.length (front.length + line.length) = some line := by
  rw [Text.slice?, if_pos (by simpa using split.length_le), split.whole, ← List.length_append, List.take_left,
    List.drop_left]

theorem cut (front text : Text) (opens : front = [] ∨ ∃ early, front = early ++ [newline]) :
    LineSplit (front ++ text) front (text.takeWhile (· ≠ newline)) (text.dropWhile (· ≠ newline)) := by
  refine ⟨?_, fun member => by simpa using List.all_eq_true.mp List.all_takeWhile _ member, opens, ?_⟩
  · rw [List.append_assoc, List.takeWhile_append_dropWhile]
  · cases behind : text.dropWhile (· ≠ newline) with
    | nil => exact .inl rfl
    | cons b late =>
      have here := List.head_dropWhile_not (p := (· ≠ newline)) (l := text) (by rw [behind]; simp)
      simp only [behind, List.head_cons] at here
      exact .inr ⟨late, by rw [show b = newline by simpa using here]⟩

theorem exists_of_le {content : Text} {offset : Nat} (inside : offset ≤ content.length) :
    ∃ front line back, LineSplit content front line back ∧ front.length ≤ offset ∧ offset ≤ front.length + line.length ∧
      front.count newline = (content.take offset).count newline := by
  -- `rest` is what the line has before the offset.
  obtain ⟨front, rest, taken, -, free, opens⟩ := Text.exists_afterLast (· = newline) (content.take offset)
  have length : front.length + rest.length = offset := by
    rw [← List.length_append, ← taken, List.length_take, Nat.min_eq_left inside]
  have split := cut front (rest ++ content.drop offset) (opens.imp id fun ⟨early, b, same, here⟩ =>
    ⟨early, same.trans (by rw [of_decide_eq_true here])⟩)
  rw [← List.append_assoc, ← taken, List.take_append_drop, List.takeWhile_append_of_pos] at split
  · refine ⟨front, _, _, split, by omega, by rw [List.length_append]; omega, ?_⟩
    have none : rest.count newline = 0 := List.count_eq_zero.mpr fun member => by simpa using free _ member
    rw [taken, List.count_append, none, Nat.add_zero]
  · exact fun b member => by simpa using free b member

end LineSplit

namespace SourceFile

variable {file : SourceFile} {front line back : Text}

theorem lineBreaks_eq (file : SourceFile) :
    file.lineBreaks = (Text.breaksFrom 0 file.content).map Nat.toUInt32 := by
  rw [lineBreaks, Text.breaksFrom, List.map_map]
  rfl

theorem length_lineBreaks (file : SourceFile) : file.lineBreaks.length = file.content.count newline := by
  rw [lineBreaks_eq, List.length_map, Text.length_breaksFrom]

variable (short : file.content.length < 4294967296)
include short

theorem toNat_of_le {place : Nat} (inside : place ≤ file.content.length) : place.toUInt32.toNat = place :=
  Nat.mod_eq_of_lt (Nat.lt_of_le_of_lt inside short)

theorem lineStart?_of_split (split : LineSplit file.content front line back) :
    file.lineStart? (front.count newline + 1) = some front.length := by
  unfold lineStart?
  split
  next behind =>
    have place := toNat_of_le short (Nat.le_trans (Nat.sub_le front.length 1)
      (Nat.le_trans (Nat.le_add_right ..) split.length_le))
    have some : 0 < front.length := List.length_pos_iff.mpr fun none => by simp [none] at behind
    rw [lineBreaks_eq, List.getElem?_map, show front.count newline + 1 - 2 = front.count newline - 1 by omega,
      split.opened (by omega), Option.map_some, Option.map_some, place, Nat.sub_add_cancel some]
  next first => rw [split.front_nil (by omega)]; rfl

theorem lineStop?_of_split (split : LineSplit file.content front line back) :
    file.lineStop? (front.count newline + 1) = some (front.length + line.length) := by
  unfold lineStop?
  rw [length_lineBreaks]
  split
  next more =>
    rw [lineBreaks_eq, List.getElem?_map, Nat.add_sub_cancel, split.closed (by omega), Option.map_some, Option.map_some,
      toNat_of_le short split.length_le]
  next last => rw [split.last (by omega)]

theorem line?_of_split (split : LineSplit file.content front line back) :
    file.line? (front.count newline + 1) = some line := by
  have inside : front.count newline ≤ file.content.count newline := by
    rw [split.whole, List.count_append, List.count_append]
    omega
  unfold line?
  rw [if_neg (by simpa [length_lineBreaks] using inside), lineStart?_of_split short split, lineStop?_of_split short split,
    Option.bind_eq_bind, Option.bind_some, Option.bind_some, if_neg (by omega), split.slice]

/-- This holds of the last of the most newlines as well: its line is empty, and so is the one without a number. -/
theorem line_of_split (split : LineSplit file.content front line back) :
    file.line (front.count newline + 1).toUInt32 = line := by
  have most : front.count newline ≤ front.length := List.count_le_length
  have fits := split.length_le
  rcases Nat.lt_or_ge (front.count newline + 1) 4294967296 with few | many
  · rw [SourceFile.line, show (front.count newline + 1).toUInt32.toNat = _ from Nat.mod_eq_of_lt few,
      line?_of_split short split, Option.getD_some]
  · have none : line = [] := List.length_eq_zero_iff.mp (by omega)
    have all : front.count newline + 1 = 4294967296 := by omega
    rw [all, none]
    rfl

theorem takeWhile_lineBreaks (split : LineSplit file.content front line back) {offset : UInt32}
    (behind : front.length ≤ offset.toNat) (before : offset.toNat ≤ front.length + line.length) :
    file.lineBreaks.takeWhile (· < offset) = (Text.breaksFrom 0 front).map Nat.toUInt32 := by
  have below {place : Nat} (inside : place ≤ file.content.length) : place.toUInt32 < offset ↔ place < offset.toNat := by
    rw [UInt32.lt_iff_toNat_lt, toNat_of_le short inside]
  have fits := split.length_le
  rw [lineBreaks_eq, split.breaks, List.map_append, List.takeWhile_append_of_pos]
  · cases behindLine : Text.breaksFrom (front.length + line.length) back with
    | nil => simp
    | cons place places =>
      have bounds := Text.breaksFrom_bounds (behindLine ▸ List.mem_cons_self : place ∈ Text.breaksFrom _ back)
      have length := congrArg List.length split.whole
      rw [List.length_append, List.length_append] at length
      rw [List.map_cons, List.takeWhile_cons_of_neg, List.append_nil]
      simpa [below (show place ≤ _ by omega)] using Nat.le_trans before bounds.1
  · intro place member
    obtain ⟨place, found, rfl⟩ := List.mem_map.mp member
    have bounds := Text.breaksFrom_bounds found
    simp only [decide_eq_true_eq, below (show place ≤ _ by omega)]
    omega

theorem position_of_split (split : LineSplit file.content front line back) {offset : UInt32}
    (behind : front.length ≤ offset.toNat) (before : offset.toNat ≤ front.length + line.length) :
    file.position offset = ⟨(front.count newline + 1).toUInt32, offset - front.length.toUInt32 + 1⟩ := by
  have counted : (file.lineBreaks.takeWhile (· < offset)).length = front.count newline := by
    rw [takeWhile_lineBreaks short split behind before, List.length_map, Text.length_breaksFrom]
  unfold position position?
  dsimp only
  rw [counted]
  split
  next some =>
    have start : (front.length - 1).toUInt32 + 1 = front.length.toUInt32 := by
      have length : front.length - 1 + 1 = front.length := by
        have : front.count newline ≤ front.length := List.count_le_length
        omega
      exact (UInt32.ofNat_add _ 1).symm.trans (congrArg Nat.toUInt32 length)
    rw [lineBreaks_eq, List.getElem?_map, split.opened some, Option.map_some, Option.map_some, Option.map_some, start]
    rfl
  next none =>
    rw [split.front_nil (by omega)]
    rfl

theorem column_of_split (split : LineSplit file.content front line back) {offset : UInt32}
    (behind : front.length ≤ offset.toNat) (before : offset.toNat ≤ front.length + line.length) :
    ((file.position offset).column - 1).toNat = offset.toNat - front.length := by
  have start := toNat_of_le short (Nat.le_trans (Nat.le_add_right ..) split.length_le)
  rw [position_of_split short split behind before, UInt32.add_sub_cancel, UInt32.toNat_sub_of_le, start]
  rw [UInt32.le_iff_toNat_le, start]
  exact behind

omit short in
theorem getElem?_of_split {text : Text} {offset : Nat} {b : UInt8} (split : LineSplit file.content front text back)
    (behind : front.length ≤ offset) (before : offset ≤ front.length + text.length)
    (here : file.content[offset]? = some b) (other : b ≠ newline) : text[offset - front.length]? = some b := by
  rw [split.whole, List.append_assoc, List.getElem?_append_right behind] at here
  rcases Nat.lt_or_ge (offset - front.length) text.length with inside | past
  · rwa [List.getElem?_append_left inside] at here
  · rw [List.getElem?_append_right past, show offset - front.length - text.length = 0 by omega] at here
    rcases split.closes with rfl | ⟨late, rfl⟩
    · cases here
    · cases here
      exact absurd rfl other

omit short in
/-- An offset is found again at its line and column. Lines, columns and offsets are words. -/
structure Located (file : SourceFile) (offset : UInt32) : Prop where
  line : (file.position offset).line = ((file.content.take offset.toNat).count newline + 1).toUInt32
  start : ∃ start, file.lineStart? ((file.content.take offset.toNat).count newline + 1) = some start ∧
    offset.toNat = start + ((file.position offset).column - 1).toNat
  column : ((file.position offset).column - 1).toNat ≤ (file.line (file.position offset).line).length
  byte : ∀ b, file.content[offset.toNat]? = some b → b ≠ newline →
    (file.line (file.position offset).line)[((file.position offset).column - 1).toNat]? = some b

theorem located {offset : UInt32} (inside : offset.toNat ≤ file.content.length) : file.Located offset := by
  obtain ⟨front, line, back, split, behind, before, counted⟩ := LineSplit.exists_of_le inside
  have column := column_of_split short split behind before
  have place : (file.position offset).line = (front.count newline + 1).toUInt32 := by
    rw [position_of_split short split behind before]
  refine ⟨counted ▸ place, ⟨_, counted ▸ lineStart?_of_split short split, by omega⟩, ?_, fun b here other => ?_⟩
  · rw [place, column, line_of_split short split]
    omega
  · rw [place, column, line_of_split short split]
    exact getElem?_of_split split behind before here other

end SourceFile

end GenericC
