import GenericC.Text
import Mathlib.Data.List.Induction

/-! Cutting texts apart: at every occurrence of a byte, behind the last one, and before an ending. -/

namespace GenericC.Text

theorem splitByte_mark_append (mark : UInt8) (front back : Text) :
    splitByte mark (front ++ mark :: back) = splitByte mark front ++ splitByte mark back := by
  induction front with
  | nil => simp [splitByte]
  | cons b front ih =>
    simp only [splitByte, List.cons_append, List.foldr_cons] at ih ⊢
    obtain ⟨first, rest⟩ := List.cons.inj ih
    by_cases here : b = mark
    · simp only [if_pos here, first, rest, List.cons_append]
    · simp only [if_neg here, first, rest]

theorem free_of_mem_splitByte {mark : UInt8} {t part : Text} (member : part ∈ splitByte mark t) : mark ∉ part := by
  induction t generalizing part with
  | nil =>
    rw [List.mem_singleton.mp member]
    exact List.not_mem_nil
  | cons b t ih =>
    simp only [splitByte, List.foldr_cons] at member ih
    split at member
    next here =>
      rcases List.mem_cons.mp member with rfl | member
      · exact List.not_mem_nil
      · exact ih member
    next other =>
      rcases List.mem_cons.mp member with rfl | member
      · intro inside
        rcases List.mem_cons.mp inside with rfl | inside
        · exact other rfl
        · exact ih List.mem_cons_self inside
      · exact ih (List.mem_cons_of_mem _ member)

theorem splitByte_word {mark : UInt8} {word : Text} (free : mark ∉ word) : splitByte mark word = [word] := by
  induction word with
  | nil => rfl
  | cons b word ih =>
    obtain ⟨other, later⟩ := not_or.mp (mt List.mem_cons.mpr free)
    have split := ih later
    simp only [splitByte, List.foldr_cons, if_neg (Ne.symm other)] at split ⊢
    obtain ⟨first, rest⟩ := List.cons.inj split
    rw [first, rest]

theorem afterLast_append {test : UInt8 → Bool} (front : Text) {back : Text} (free : ∀ b ∈ back, test b = false) :
    afterLast test (front ++ back) = afterLast test front := by
  have none : back.reverse.findIdx? test = none := by simpa using free
  unfold afterLast
  rw [List.reverse_append, List.findIdx?_append, none, Option.none_or, List.length_reverse]
  cases front.reverse.findIdx? test with
  | none => rfl
  | some place => simp [Nat.add_sub_add_right]

theorem afterLast_concat {test : UInt8 → Bool} (front : Text) {b : UInt8} (here : test b = true) :
    afterLast test (front ++ [b]) = front.length + 1 := by
  simp [afterLast, List.findIdx?_cons, here]

theorem exists_afterLast (test : UInt8 → Bool) (t : Text) :
    ∃ front back, t = front ++ back ∧ afterLast test t = front.length ∧ (∀ b ∈ back, test b = false) ∧
      (front = [] ∨ ∃ start b, front = start ++ [b] ∧ test b = true) := by
  induction t using List.reverseRecOn with
  | nil => exact ⟨[], [], rfl, rfl, by simp, .inl rfl⟩
  | append_singleton t b ih =>
    by_cases here : test b = true
    · exact ⟨t ++ [b], [], by simp, by rw [afterLast_concat t here, List.length_append]; rfl, by simp,
        .inr ⟨t, b, rfl, here⟩⟩
    · obtain ⟨front, back, rfl, after, free, shape⟩ := ih
      have here : test b = false := by simpa using here
      refine ⟨front, back ++ [b], by simp, ?_, ?_, shape⟩
      · rw [afterLast_append _ (by simpa using here)]
        exact after
      · simpa [or_imp, forall_and] using ⟨free, here⟩

theorem dropEnd_append (front ending : Text) : dropEnd (front ++ ending) ending = front := by
  have ends : endsWith (front ++ ending) ending = true := by simp [endsWith]
  rw [dropEnd, if_pos ends, List.length_append, Nat.add_sub_cancel, List.take_left]

end GenericC.Text
