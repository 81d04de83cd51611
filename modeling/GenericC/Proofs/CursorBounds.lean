import GenericC.Token.Cursor
import Mathlib.Data.List.GetD

/-! How far a cursor moves. An offset and a distance are added as words before the sum is compared with the end of the
content, so a sum beyond the last word leads back into what was read. No calls leave the content, and they move and
read as their distances say as long as the sum is a word. -/

namespace GenericC.Cursor

inductive Call
  | atEnd
  | peek
  | peekAt (n : UInt32)
  | rest
  | hasStart (start : Text)
  | advance (n : UInt32)
  | bump
  | eat (b : UInt8)
  | mark
  | spanFrom (place : UInt32)
  | rewind (place : UInt32)
  | drain

namespace Call

@[simp] def after (cursor : Cursor) : Call → Cursor
  | advance n => cursor.advance n
  | bump => cursor.bump.2
  | eat b => (cursor.eat b).2
  | rewind place => cursor.rewind place
  | drain => cursor.drain
  | _ => cursor

/-- How far a call moves on without asking whether there is more to read. -/
@[simp] def distance? : Call → Option UInt32
  | advance n => some n
  | bump => some 1
  | _ => none

end Call

/-- The cursor behind a sequence of calls, given the marks taken before. It goes back to marks of its own only. -/
def run? (cursor : Cursor) (marks : List UInt32) : List Call → Option Cursor
  | [] => some cursor
  | .mark :: calls => cursor.run? (cursor.mark :: marks) calls
  | .rewind place :: calls => if place ∈ marks then (cursor.rewind place).run? marks calls else none
  | call :: calls => (call.after cursor).run? marks calls

/-- The offset and all marks lie in the content. -/
structure Inside (content : Text) (cursor : Cursor) (marks : List UInt32) : Prop where
  fits : content.length < UInt32.size
  same : cursor.content = content
  offset_le : cursor.offset.toNat ≤ content.length
  marks_le : ∀ place ∈ marks, place.toNat ≤ content.length

namespace Inside

variable {content : Text} {cursor : Cursor} {marks : List UInt32} (inside : Inside content cursor marks)
include inside

theorem stop : cursor.stop.toNat = content.length := by simpa [Cursor.stop, inside.same] using inside.fits

theorem advance (n : UInt32) : (cursor.advance n).offset.toNat =
    min ((cursor.offset.toNat + n.toNat) % UInt32.size) content.length := by
  rw [← UInt32.toNat_add, ← inside.stop]
  simp only [Cursor.advance, Std.min_eq_if, UInt32.le_iff_toNat_le]
  split <;> rfl

theorem peekAt (n : UInt32) : cursor.peekAt n = content.getD ((cursor.offset.toNat + n.toNat) % UInt32.size) 0 := by
  rw [← UInt32.toNat_add, ← inside.same]
  simp only [Cursor.peekAt, UInt32.lt_iff_toNat_lt]
  split
  next => rfl
  next past =>
    rw [inside.stop, ← inside.same, Nat.not_lt] at past
    exact (List.getD_eq_default _ _ past).symm

/-- A sum that is no word is one word too large, and then it lies before the offset. -/
theorem wrapped {n : UInt32} (wraps : UInt32.size ≤ cursor.offset.toNat + n.toNat) :
    (cursor.offset.toNat + n.toNat) % UInt32.size = cursor.offset.toNat + n.toNat - UInt32.size ∧
      cursor.offset.toNat + n.toNat - UInt32.size < cursor.offset.toNat := by
  have le := inside.offset_le
  have fits := inside.fits
  have bound := n.toNat_lt
  unfold UInt32.size at *
  omega

theorem advance_lt_iff (n : UInt32) :
    (cursor.advance n).offset < cursor.offset ↔ UInt32.size ≤ cursor.offset.toNat + n.toNat := by
  have le := inside.offset_le
  rw [UInt32.lt_iff_toNat_lt, inside.advance]
  by_cases wraps : UInt32.size ≤ cursor.offset.toNat + n.toNat
  · have := inside.wrapped wraps
    omega
  · rw [Nat.mod_eq_of_lt (Nat.not_le.mp wraps)]
    omega

/-- What is eaten is there to be read, so the next offset is a word. -/
theorem eat (b : UInt8) : (cursor.eat b).2 = cursor ∨
    (cursor.eat b).2 = cursor.advance 1 ∧ ¬ (cursor.advance 1).offset < cursor.offset := by
  have stop := inside.stop
  have fits := inside.fits
  rw [inside.advance_lt_iff, Cursor.eat]
  split
  next => exact .inl rfl
  next found =>
    have before : cursor.offset.toNat < content.length := by
      simp only [atEnd, Bool.or_eq_true, decide_eq_true_eq, not_or, UInt32.le_iff_toNat_le] at found
      omega
    have within : cursor.offset + 1 ≤ cursor.stop := by
      rw [UInt32.le_iff_toNat_le, UInt32.toNat_add, UInt32.toNat_one]
      omega
    rw [Cursor.advance, Std.min_eq_if, if_pos within, UInt32.toNat_one]
    exact .inr ⟨rfl, by omega⟩

theorem after (call : Call) (known : ∀ place, call = .rewind place → place ∈ marks) :
    Inside content (call.after cursor) marks := by
  have moved (n : UInt32) : Inside content (cursor.advance n) marks :=
    { inside with offset_le := by rw [inside.advance]; exact Nat.min_le_right _ _ }
  cases call with
  | advance n => exact moved n
  | bump => exact moved 1
  | eat b =>
    show Inside content (cursor.eat b).2 marks
    obtain kept | ⟨eaten, -⟩ := inside.eat b
    · rwa [kept]
    · exact eaten ▸ moved 1
  | rewind place => exact { inside with offset_le := inside.marks_le place (known place rfl) }
  | drain => exact { inside with offset_le := Nat.le_of_eq inside.stop }
  | _ => exact inside

theorem lessens_iff {call : Call} (onward : ∀ place, call ≠ .rewind place) :
    (call.after cursor).offset < cursor.offset ↔ ∃ n ∈ call.distance?, UInt32.size ≤ cursor.offset.toNat + n.toNat := by
  cases call with
  | advance n => simp [inside.advance_lt_iff]
  | bump => simp [bump, inside.advance_lt_iff]
  | eat b =>
    obtain kept | ⟨eaten, stays⟩ := inside.eat b
    · simp [kept]
    · simpa [eaten] using stays
  | rewind place => exact absurd rfl (onward place)
  | drain => simpa [drain, UInt32.le_iff_toNat_le, inside.stop] using inside.offset_le
  | _ => simp

theorem run {calls : List Call} {last : Cursor} (ran : cursor.run? marks calls = some last) :
    ∃ taken, Inside content last taken := by
  -- A mark is an offset that was inside when it was taken, so going back to it stays inside.
  fun_induction run? cursor marks calls with
  | case1 cursor marks => exact ⟨marks, Option.some.inj ran ▸ inside⟩
  | case2 cursor marks calls ih =>
    exact ih { inside with marks_le := List.forall_mem_cons.mpr ⟨inside.offset_le, inside.marks_le⟩ } ran
  | case3 cursor marks place calls known ih =>
    exact ih (inside.after (.rewind place) fun _ same => Call.rewind.inj same ▸ known) ran
  | case4 => cases ran
  | case5 cursor marks call calls _ back ih => exact ih (inside.after call fun place found => absurd found (back place)) ran

end Inside

/-- Whatever was called before, the offset lies in the content, and a call with a distance moves and reads as it says if
and only if the sum is a word. Otherwise it moves back, and reads what stands there. -/
theorem calls_stay_inside (file : UInt32) (content : Text) (fits : content.length < UInt32.size) (calls : List Call)
    (cursor : Cursor) (ran : run? { file, content } [] calls = some cursor) :
    cursor.offset.toNat ≤ content.length ∧
    (∀ call : Call, (∀ place, call ≠ .rewind place) → ((call.after cursor).offset < cursor.offset ↔
      ∃ n ∈ call.distance?, UInt32.size ≤ cursor.offset.toNat + n.toNat)) ∧
    ∀ n : UInt32, let sum := cursor.offset.toNat + n.toNat
      (sum < UInt32.size → (cursor.advance n).offset.toNat = min sum content.length ∧
        (content.length ≤ sum → cursor.peekAt n = 0)) ∧
      (UInt32.size ≤ sum → (cursor.advance n).offset.toNat = sum - UInt32.size ∧
        content[sum - UInt32.size]? = some (cursor.peekAt n)) := by
  have first : Inside content { file, content } [] := ⟨fits, rfl, Nat.zero_le _, by simp⟩
  obtain ⟨marks, inside⟩ := first.run ran
  refine ⟨inside.offset_le, fun call => inside.lessens_iff, fun n => ?_⟩
  intro sum
  rw [inside.advance, inside.peekAt]
  refine ⟨fun word => ?_, fun wraps => ?_⟩
  · rw [Nat.mod_eq_of_lt word]
    exact ⟨rfl, List.getD_eq_default _ _⟩
  · obtain ⟨back, before⟩ := inside.wrapped wraps
    have within := Nat.lt_of_lt_of_le before inside.offset_le
    rw [back, List.getD_eq_getElem _ _ within, List.getElem?_eq_getElem within]
    exact ⟨Nat.min_eq_left (Nat.le_of_lt within), rfl⟩

theorem returned_to_mark_inside :
    run? ⟨0, [97, 10, 98, 10], 0⟩ [] [.bump, .mark, .advance 9, .rewind 1, .eat 10] = some ⟨0, [97, 10, 98, 10], 2⟩ ∧
    (Cursor.mk 0 [97, 10, 98, 10] 2 |>.advance 0xFFFFFFFD).offset.toNat = 4 ∧
    (Cursor.mk 0 [97, 10, 98, 10] 2 |>.advance 0xFFFFFFFE).offset.toNat = 0 := by
  have ran : run? ⟨0, [97, 10, 98, 10], 0⟩ [] [.bump, .mark, .advance 9, .rewind 1, .eat 10] =
    some ⟨0, [97, 10, 98, 10], 2⟩ := rfl
  obtain ⟨-, -, moves⟩ := calls_stay_inside 0 _ (by decide) _ _ ran
  exact ⟨ran, ((moves 0xFFFFFFFD).1 (by decide)).1, ((moves 0xFFFFFFFE).2 (by decide)).1⟩

/-- From behind the first byte of two, the farthest distance leads back in front of it, and shows it. -/
theorem farthest_advance_goes_back : let cursor := ({ file := 0, content := [97, 98] } : Cursor).advance 1
    cursor.offset = 1 ∧ (cursor.advance 0xFFFFFFFF).offset = 0 ∧ cursor.peekAt 0xFFFFFFFF = 97 ∧
      cursor.content.length ≤ cursor.offset.toNat + (0xFFFFFFFF : UInt32).toNat := by
  decide

end GenericC.Cursor
