import GenericC.Proofs.TokenText
import Mathlib.Data.List.TakeWhile

/-! Where the tokens of a file stand: inside the file, over at least one byte, and one behind the other. Offsets are
words of 32 bits, so this is about files that are short enough for them. -/

namespace GenericC

namespace Lexeme

theorem logicalLine_le (t : Text) (n : Nat) : logicalLine t n ≤ n + t.length := by
  fun_induction logicalLine t n <;> simp only [List.length_cons, List.length_nil] at * <;> omega

/-- The blanks at the end of a preprocessor line are read, but they are no part of it; the mark at its beginning is. -/
theorem directive_fits (rest : Text) :
    let lexeme := directive (Text.byte '#' :: rest)
    0 < lexeme.length ∧ lexeme.length ≤ lexeme.consumed ∧ lexeme.consumed ≤ (Text.byte '#' :: rest).length := by
  have some : 0 < logicalLine (Text.byte '#' :: rest) 0 := directive_pos rest
  have bound := logicalLine_le (Text.byte '#' :: rest) 0
  rw [Nat.zero_add] at bound
  obtain ⟨n, length⟩ : ∃ n, logicalLine (Text.byte '#' :: rest) 0 = n + 1 := ⟨_, (Nat.succ_pred_eq_of_pos some).symm⟩
  refine ⟨?_, ?_, bound⟩
  · show 0 < (Text.dropWhileEnd _ ((Text.byte '#' :: rest).take (logicalLine (Text.byte '#' :: rest) 0))).length
    rw [length, List.take_succ_cons, List.length_pos_iff, Text.dropWhileEnd, List.reverse_ne_nil_iff, List.reverse_cons]
    intro none
    have blank := List.dropWhile_eq_nil_iff.mp none (Text.byte '#') (by simp)
    exact absurd blank (by decide)
  · show (Text.dropWhileEnd _ ((Text.byte '#' :: rest).take (logicalLine (Text.byte '#' :: rest) 0))).length ≤ _
    rw [Text.dropWhileEnd, List.length_reverse]
    refine Nat.le_trans (List.dropWhile_sublist _).length_le ?_
    rw [List.length_reverse]
    exact List.length_take_le _ _

theorem scan_fits (lineStart : Bool) (b : UInt8) (rest : Text) :
    let lexeme := scan lineStart b rest
    0 < lexeme.length ∧ lexeme.length ≤ lexeme.consumed ∧ lexeme.consumed ≤ (b :: rest).length := by
  rcases scan_within lineStart b rest with ⟨read, rfl⟩ | within
  · rw [read]
    exact directive_fits rest
  · obtain ⟨whole, inside⟩ := within.whole (by simp)
    exact ⟨Nat.lt_of_lt_of_eq (scan_pos lineStart b rest) whole.symm, Nat.le_of_eq whole, inside⟩

end Lexeme

namespace TriviaPiece

theorem commentBody_le (body : Text) (n : Nat) : (commentBody body n).1 ≤ n + body.length := by
  induction body generalizing n with
  | nil => exact Nat.le_refl _
  | cons b rest ih =>
    rw [commentBody]
    split
    next ends =>
      simp only [Bool.and_eq_true, decide_eq_true_eq] at ends
      obtain ⟨more, rfl⟩ := List.head?_eq_some_iff.mp ends.2
      simp only [List.length_cons]
      omega
    next =>
      have := ih (n + 1)
      simp only [List.length_cons]
      omega

theorem at?_le {t : Text} {piece : TriviaPiece} (found : at? t = some piece) : piece.length ≤ t.length := by
  cases begins_of_at? found with
  | spaces | newlines => exact Lexeme.run_le _ _
  | lineComment body =>
    have := Lexeme.run_le (fun d => !Lexeme.isNewline d) body
    simp only [List.length_cons]
    omega
  | blockComment body =>
    have := commentBody_le body 2
    simp only [List.length_cons]
    omega

end TriviaPiece

def Span.low (span : Span) : Nat := span.start.toNat

def Span.high (span : Span) : Nat := span.stop.toNat

/-- A token stands in a file of `size` bytes, from the offset `least` on. -/
structure Token.Stands (file : UInt32) (least size : Nat) (token : Token) : Prop where
  file : token.span.file = file
  least : least ≤ token.span.low
  ordered : token.span.low ≤ token.span.high
  inside : token.span.high ≤ size
  some : token.kind ≠ .endOfFile → token.span.low < token.span.high
  double : token.kind = .shiftRight → token.span.high = token.span.low + 2

theorem Token.Stands.lower {file : UInt32} {low least size : Nat} {token : Token} (stands : token.Stands file low size)
    (below : least ≤ low) : token.Stands file least size := { stands with least := Nat.le_trans below stands.least }

def Spaced (tokens : List Token) : Prop := tokens.Pairwise fun first second => first.span.high ≤ second.span.low

namespace Lexer

def stop (lexer : Lexer) : Nat := lexer.offset + lexer.rest.length

structure Further (before after : Lexer) : Prop where
  file : after.file = before.file
  offset : before.offset ≤ after.offset
  stop : after.stop = before.stop

theorem further_skip {lexer : Lexer} {count : Nat} (inside : count ≤ lexer.rest.length) (lineStart : Bool) :
    Further lexer { lexer.skip count with lineStart } := by
  refine ⟨rfl, Nat.le_add_right _ _, ?_⟩
  simp only [stop, skip, List.length_drop]
  omega

theorem leading_further (lexer : Lexer) : Further lexer lexer.leading.next := by
  fun_induction leading lexer with
  | case1 => exact ⟨rfl, Nat.le_refl _, rfl⟩
  | case2 lexer piece found more ih =>
    have skipped : Further lexer (lexer.afterTrivia piece) := further_skip (TriviaPiece.at?_le found) _
    exact ⟨ih.file.trans skipped.file, Nat.le_trans skipped.offset ih.offset, ih.stop.trans skipped.stop⟩

theorem low_span {lexer : Lexer} {length : Nat} (short : lexer.stop < 4294967296) : (lexer.span length).low = lexer.offset :=
  Nat.mod_eq_of_lt (Nat.lt_of_le_of_lt (Nat.le_add_right _ _) short)

theorem high_span {lexer : Lexer} {length : Nat} (short : lexer.stop < 4294967296) (inside : length ≤ lexer.rest.length) :
    (lexer.span length).high = lexer.offset + length :=
  Nat.mod_eq_of_lt (Nat.lt_of_le_of_lt (Nat.add_le_add_left inside _) short)

theorem significant_stands (lexer : Lexer) (trivia : List Trivia) (short : lexer.stop < 4294967296) :
    let read := lexer.significant trivia
    read.token.Stands lexer.file lexer.offset lexer.stop ∧ Further lexer read.next ∧
      read.token.span.high ≤ read.next.offset := by
  have spelled := significant_spelled lexer trivia
  unfold significant at spelled ⊢
  split
  next empty =>
    have low := @low_span lexer 0 short
    have high := high_span short (Nat.zero_le _)
    refine ⟨⟨rfl, Nat.le_of_eq low.symm, ?_, ?_, fun more => absurd rfl more, fun double => nomatch double⟩,
      ⟨rfl, Nat.le_refl _, rfl⟩, Nat.le_of_eq high⟩
    · exact Nat.le_of_eq (low.trans high.symm)
    · exact Nat.le_trans (Nat.le_of_eq high) (Nat.le_add_right _ _)
  next b tail same =>
    simp only [same] at spelled
    obtain ⟨some, read, inside⟩ := Lexeme.scan_fits lexer.lineStart b tail
    rw [← same] at inside
    generalize Lexeme.scan lexer.lineStart b tail = lexeme at some read inside spelled ⊢
    have low := @low_span lexer lexeme.length short
    have high := high_span short (Nat.le_trans read inside)
    have within : lexer.offset + lexeme.consumed ≤ lexer.stop := Nat.add_le_add_left inside _
    dsimp only at spelled ⊢
    split
    · refine ⟨⟨rfl, ?_, ?_, ?_, fun _ => ?_, fun double => nomatch double⟩, further_skip (Nat.le_refl _) _, ?_⟩ <;>
        simp only [low, high, skip, stop] at within ⊢ <;> omega
    next fitting =>
      rw [if_neg fitting] at spelled
      have double (double : lexeme.kind = .shiftRight) : (lexer.span lexeme.length).high = (lexer.span lexeme.length).low + 2 := by
        have spelled : SpelledAs lexeme.kind (lexer.rest.take lexeme.length) := same ▸ spelled
        rw [double] at spelled
        have length := congrArg List.length (show _ = TokenKind.shiftRight.spelling from spelled)
        rw [List.length_take_of_le (Nat.le_trans read inside)] at length
        exact high.trans (congrArg₂ (· + ·) low.symm length)
      refine ⟨⟨rfl, ?_, ?_, ?_, fun _ => ?_, double⟩, further_skip inside _, ?_⟩ <;>
        simp only [low, high, skip] at within ⊢ <;> omega

theorem run_stands (lexer : Lexer) (short : lexer.stop < 4294967296) :
    (∀ token ∈ lexer.run.1, token.Stands lexer.file lexer.offset lexer.stop) ∧ Spaced lexer.run.1 := by
  have step (lexer : Lexer) (short : lexer.stop < 4294967296) :
      lexer.step.token.Stands lexer.file lexer.offset lexer.stop ∧ Further lexer lexer.step.next ∧
        lexer.step.token.span.high ≤ lexer.step.next.offset := by
    have front := leading_further lexer
    obtain ⟨stands, further, behind⟩ := significant_stands lexer.leading.next lexer.leading.trivia (front.stop ▸ short)
    rw [front.file, front.stop] at stands
    exact ⟨stands.lower front.offset, ⟨further.file.trans front.file, Nat.le_trans front.offset further.offset,
      further.stop.trans front.stop⟩, behind⟩
  fun_induction run lexer with
  | case1 lexer read last => exact ⟨List.forall_mem_singleton.mpr (step lexer short).1, List.pairwise_singleton _ _⟩
  | case2 lexer read more later ih =>
    obtain ⟨stands, further, behind⟩ := step lexer short
    obtain ⟨all, spaced⟩ := ih (further.stop ▸ short)
    rw [further.file, further.stop] at all
    refine ⟨List.forall_mem_cons.mpr ⟨stands, fun token member => (all token member).lower further.offset⟩,
      List.pairwise_cons.mpr ⟨fun token member => ?_, spaced⟩⟩
    exact Nat.le_trans behind (all token member).least

theorem run_ended (lexer : Lexer) :
    (∃ last, lexer.run.1.getLast? = some last ∧ last.kind = .endOfFile) ∧
      lexer.run.1.Pairwise fun first _ => first.kind ≠ .endOfFile := by
  fun_induction run lexer with
  | case1 lexer read last => exact ⟨⟨read.token, rfl, last⟩, List.pairwise_singleton _ _⟩
  | case2 lexer read more later ih =>
    obtain ⟨⟨last, found, ended⟩, others⟩ := ih
    refine ⟨⟨last, ?_, ended⟩, List.pairwise_cons.mpr ⟨fun _ _ => more, others⟩⟩
    rw [List.getLast?_cons, show later.1.getLast? = some last from found]
    rfl

end Lexer

theorem tokenize_stands (file : UInt32) (content : Text) (short : content.length < 4294967296) :
    (∀ token ∈ (tokenize file content).1, token.Stands file 0 content.length) ∧ Spaced (tokenize file content).1 := by
  have whole : (Lexer.start file content).stop = content.length := Nat.zero_add _
  rw [← whole] at short ⊢
  exact Lexer.run_stands (.start file content) short

theorem tokenize_ended (file : UInt32) (content : Text) :
    (∃ last, (tokenize file content).1.getLast? = some last ∧ last.kind = .endOfFile) ∧
      (tokenize file content).1.Pairwise fun first _ => first.kind ≠ .endOfFile := Lexer.run_ended _

end GenericC
