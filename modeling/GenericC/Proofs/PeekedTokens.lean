import GenericC.Proofs.TokenTiling
import Mathlib.Data.List.Chain

/-! Reading a file token by token, with looks ahead in between. However takes and looks follow each other, the tokens are
those of the whole file in order, and what is wrong with a token is reported when it is first met and never again. -/

namespace GenericC

namespace Lexer

def steps (lexer : Lexer) : Nat → List Step
  | 0 => []
  | count + 1 => lexer.step :: lexer.step.next.steps count

theorem step_again {lexer : Lexer} (ended : lexer.step.token.kind = .endOfFile) :
    lexer.step.next.step = { lexer.step with problems := [] } := by
  have empty : lexer.leading.next.rest = [] := (significant_ended _ _).mp ended
  have stays (trivia : List Trivia) : lexer.leading.next.significant trivia =
      ⟨{ kind := .endOfFile, span := lexer.leading.next.span 0 }, [], lexer.leading.next⟩ := by
    unfold significant
    rw [empty]
  have first : lexer.step = ⟨{ kind := .endOfFile, span := lexer.leading.next.span 0 }, lexer.leading.problems ++ [],
      lexer.leading.next⟩ := by
    rw [step, stays]
  have bare : lexer.leading.next.leading = ⟨[], [], lexer.leading.next⟩ := by
    rw [leading]
    split
    · rfl
    next found => simp [empty, TriviaPiece.at?] at found
  rw [first, step, bare, stays]
  rfl

theorem steps_ended {lexer : Lexer} (ended : lexer.step.token.kind = .endOfFile) (count : Nat) :
    lexer.step.next.steps count = List.replicate count { lexer.step with problems := [] } := by
  induction count with
  | zero => rfl
  | succ count ih =>
    rw [steps, step_again ended, List.replicate_succ]
    exact congrArg _ ih

theorem steps_tokens (lexer : Lexer) : ∀ last ∈ lexer.run.1.getLast?, ∀ count more, count ≤ more →
    (lexer.steps count).map (·.token) = (lexer.run.1 ++ List.replicate more last).take count := by
  fun_induction run lexer with
  | case1 lexer read ended =>
    intro last found count more enough
    obtain rfl : read.token = last := Option.some.inj found
    cases count with
    | zero => rfl
    | succ count =>
      have within : min count more = count := by omega
      simp [steps, steps_ended ended, read, within]
  | case2 lexer read goesOn later ih =>
    intro last found count more enough
    obtain ⟨⟨final, behind, -⟩, -⟩ := run_ended read.next
    rw [List.getLast?_cons, behind] at found
    cases count with
    | zero => rfl
    | succ count =>
      rw [steps, List.map_cons, ih last (behind.trans found) count more (Nat.le_of_succ_le enough)]
      rfl

/-- What is reported up to some place stands in front of all that is reported, and up to the end it is all. -/
theorem steps_problems (lexer : Lexer) (count : Nat) : (lexer.steps count).flatMap (·.problems) <+: lexer.run.2 ∧
    ((∃ read ∈ lexer.steps count, read.token.kind = .endOfFile) →
      (lexer.steps count).flatMap (·.problems) = lexer.run.2) := by
  fun_induction run lexer generalizing count with
  | case1 lexer read ended =>
    cases count with
    | zero => exact ⟨List.nil_prefix, fun found => by simp [steps] at found⟩
    | succ count =>
      have all : (lexer.steps (count + 1)).flatMap (·.problems) = read.problems := by
        simp [steps, steps_ended ended, read]
      rw [all]
      exact ⟨List.prefix_rfl, fun _ => rfl⟩
  | case2 lexer read more later ih =>
    cases count with
    | zero => exact ⟨List.nil_prefix, fun found => by simp [steps] at found⟩
    | succ count =>
      obtain ⟨front, whole⟩ := ih count
      refine ⟨(List.prefix_append_right_inj _).mpr front, ?_⟩
      rintro ⟨last, member, ended⟩
      have behind : last ∈ read.next.steps count := by
        refine (List.mem_cons.mp member).resolve_left ?_
        rintro rfl
        exact more ended
      exact congrArg _ (whole ⟨last, behind, ended⟩)

end Lexer

namespace LexerWithPeek

inductive Call
  | next
  | peek
deriving DecidableEq

structure Answer where
  call : Call
  token : Token
  problems : List Diagnostic

def answers (state : LexerWithPeek) : List Call → List Answer
  | [] => []
  | .next :: calls => ⟨.next, state.next.1, state.next.2.1⟩ :: state.next.2.2.answers calls
  | .peek :: calls => ⟨.peek, state.peek.1, state.peek.2.1⟩ :: state.peek.2.2.answers calls

/-- The next token of the lexer is the next one to be taken. It is still to be read, or it is held and its problems
are reported already. -/
inductive Stands (lexer : Lexer) : List Diagnostic → LexerWithPeek → Prop
  | unread : Stands lexer [] { lexer }
  | kept : Stands lexer lexer.step.problems { lexer := lexer.step.next, ahead := some lexer.step.token }

variable {lexer : Lexer} {reported : List Diagnostic} {state : LexerWithPeek}

theorem Stands.next (stands : Stands lexer reported state) :
    ∃ problems, state.next = (lexer.step.token, problems, { lexer := lexer.step.next }) ∧
      reported ++ problems = lexer.step.problems := by
  cases stands with
  | unread => exact ⟨_, rfl, rfl⟩
  | kept => exact ⟨[], rfl, List.append_nil _⟩

theorem Stands.peek (stands : Stands lexer reported state) :
    ∃ problems, state.peek =
        (lexer.step.token, problems, { lexer := lexer.step.next, ahead := some lexer.step.token }) ∧
      reported ++ problems = lexer.step.problems := by
  obtain ⟨problems, taken, all⟩ := stands.next
  rw [LexerWithPeek.peek, taken]
  exact ⟨problems, rfl, all⟩

theorem Stands.answers (stands : Stands lexer reported state) (calls : List Call) :
    ((state.answers calls).filter (·.call = .next)).map (·.token) = (lexer.steps (calls.count .next)).map (·.token) ∧
      ∃ count, (state.ahead ≠ none → 0 < count) ∧
        reported ++ (state.answers calls).flatMap (·.problems) = (lexer.steps count).flatMap (·.problems) ∧
        ∀ answer ∈ state.answers calls, ∃ read ∈ lexer.steps count, read.token = answer.token := by
  induction calls generalizing lexer reported state with
  | nil =>
    refine ⟨rfl, ?_⟩
    cases stands with
    | unread => exact ⟨0, fun held => absurd rfl held, rfl, fun answer member => nomatch member⟩
    | kept => exact ⟨1, fun _ => Nat.one_pos, rfl, fun answer member => nomatch member⟩
  | cons call calls ih =>
    cases call with
    | next =>
      obtain ⟨problems, taken, all⟩ := stands.next
      obtain ⟨tokens, count, -, same, among⟩ := ih (.unread : Stands lexer.step.next _ _)
      rw [LexerWithPeek.answers, taken]
      refine ⟨?_, count + 1, fun _ => Nat.succ_pos _, ?_, ?_⟩
      · rw [List.count_cons_self, Lexer.steps, List.map_cons, ← tokens]
        rfl
      · rw [List.flatMap_cons, ← List.append_assoc, all, Lexer.steps, List.flatMap_cons, ← same]
        rfl
      · refine List.forall_mem_cons.mpr ⟨⟨_, List.mem_cons_self, rfl⟩, fun answer member => ?_⟩
        obtain ⟨read, found, token⟩ := among answer member
        exact ⟨read, List.mem_cons_of_mem _ found, token⟩
    | peek =>
      obtain ⟨problems, looked, all⟩ := stands.peek
      obtain ⟨tokens, count, some, same, among⟩ := ih .kept
      have positive := some (Option.some_ne_none _)
      rw [LexerWithPeek.answers, looked]
      refine ⟨?_, count, fun _ => positive, ?_, ?_⟩
      · rw [List.count_cons_of_ne (by decide), ← tokens]
        rfl
      · rw [List.flatMap_cons, ← List.append_assoc, all, same]
      · obtain ⟨count, rfl⟩ := Nat.exists_eq_add_one.mpr positive
        exact List.forall_mem_cons.mpr ⟨⟨_, List.mem_cons_self, rfl⟩, among⟩

theorem answers_after_peek (state : LexerWithPeek) (calls : List Call) :
    (state.answers calls).IsChain fun now later =>
      now.call = .peek → later.token = now.token ∧ later.problems = [] := by
  induction calls generalizing state with
  | nil => exact .nil
  | cons call calls ih =>
    cases call with
    | next => exact List.isChain_cons.mpr ⟨fun later _ looked => (nomatch looked), ih _⟩
    | peek =>
      refine List.isChain_cons.mpr ⟨fun later first _ => ?_, ih _⟩
      rcases calls with _ | ⟨_ | _, calls⟩ <;> cases first
      all_goals exact ⟨rfl, rfl⟩

end LexerWithPeek

/-- Looks ahead change nothing. The takes give the tokens of the file and then its end forever; the call behind a look
gives the same token, whether it looks or takes; and the problems are reported in order, each of them once, and all of
them up to the end of the file. -/
theorem peeks_leave_tokens (file : UInt32) (content : Text) (calls : List LexerWithPeek.Call) :
    let given := LexerWithPeek.answers { lexer := .start file content } calls
    let reported := given.flatMap (·.problems)
    (∃ last, (tokenize file content).1.getLast? = some last ∧ last.kind = .endOfFile ∧
      (given.filter (·.call = .next)).map (·.token) =
        ((tokenize file content).1 ++ List.replicate calls.length last).take (calls.count .next)) ∧
      (given.IsChain fun now later => now.call = .peek → later.token = now.token ∧ later.problems = []) ∧
      reported <+: (tokenize file content).2 ∧
      ((∃ answer ∈ given, answer.token.kind = .endOfFile) → reported = (tokenize file content).2) := by
  intro given reported
  have stands : LexerWithPeek.Stands (.start file content) [] { lexer := .start file content } := .unread
  obtain ⟨tokens, count, -, same, among⟩ := stands.answers calls
  obtain ⟨⟨last, found, ended⟩, -⟩ := Lexer.run_ended (.start file content)
  obtain ⟨front, whole⟩ := Lexer.steps_problems (.start file content) count
  rw [List.nil_append] at same
  refine ⟨⟨last, found, ended, ?_⟩, LexerWithPeek.answers_after_peek _ calls, ?_, ?_⟩
  · exact tokens.trans (Lexer.steps_tokens _ last found _ _ List.count_le_length)
  · exact (congrArg (· <+: _) same).mpr front
  · rintro ⟨answer, member, final⟩
    obtain ⟨read, step, token⟩ := among answer member
    exact same.trans (whole ⟨read, step, token ▸ final⟩)

end GenericC
