import GenericC.Proofs.GrammarComposition

/-! A parse of any tokens stays inside its tokens and comes to an end. Whatever part of a rule is run, it begins at a
token of the file, and of its loops each round but the last takes a token. So a parse never asks for a token past the
last one, never drops type parameters where there are none, and never repeats a round for ever. -/

namespace GenericC

/-- A place among some tokens. The current token is the one at the place, or the second half of it if that is a double
bracket. -/
structure Place.In (tokens : List Token) (place : Place) : Prop where
  upcoming : place.upcoming = tokens.drop (place.taken + 1)
  current : ∃ token, tokens[place.taken]? = some token ∧
    (place.current = token ∨ (token.kind = .shiftRight ∧ place.current = token.secondHalf))

namespace Place

variable {tokens : List Token}

theorem In.taken_lt {place : Place} (inside : place.In tokens) : place.taken < tokens.length := by
  obtain ⟨token, found, -⟩ := inside.current
  exact (List.getElem?_eq_some_iff.mp found).1

theorem In.step {before after : Place} (inside : before.In tokens) (step : before.Step after) : after.In tokens := by
  cases step with
  | @take next later more upcoming =>
    rw [inside.upcoming] at upcoming
    have next : tokens[before.taken + 1]? = some next := by
      rw [← List.head?_drop, upcoming]
      rfl
    refine ⟨?_, _, next, .inl rfl⟩
    rw [← List.drop_drop, upcoming]
    rfl
  | split double =>
    obtain ⟨token, found, same | ⟨-, half⟩⟩ := inside.current
    · exact ⟨inside.upcoming, token, found, .inr (same ▸ ⟨double, rfl⟩)⟩
    · rw [half] at double
      cases double

theorem In.reaches {first second : Place} (inside : first.In tokens) (reaches : first.Reaches second) :
    second.In tokens :=
  reaches.keeps (·.In tokens) (fun step inside => inside.step step) inside

theorem In.more {place : Place} (inside : place.In tokens) (closed : ∀ last ∈ tokens.getLast?, last.kind = .endOfFile)
    (more : place.current.kind ≠ .endOfFile) : place.upcoming ≠ [] := by
  intro none
  rw [inside.upcoming, List.drop_eq_nil_iff] at none
  have last : place.taken = tokens.length - 1 := by
    have := inside.taken_lt
    omega
  obtain ⟨token, found, here⟩ := inside.current
  have ended : token.kind = .endOfFile := by
    refine closed token ?_
    rw [List.getLast?_eq_getElem?, ← last]
    exact found
  rcases here with rfl | ⟨double, -⟩
  · exact more ended
  · rw [ended] at double
    cases double

end Place

namespace Parse

variable {state after : ParseState}

/-- What a loop comes to behind some rounds. -/
inductive Repeats {α β : Type} (round : α → Parse (Round α β)) (start : α) (state : ParseState) :
    α → ParseState → Prop where
  | here : Repeats round start state start state
  | again {value next : α} {middle after : ParseState} (early : Repeats round start state value middle)
      (goesOn : round value middle = .ok (.again next) after) : Repeats round start state next after

/-- A rule that is run from a state stays inside some tokens: every part of it that is run begins and ends there, type
parameters are dropped only where there are some, and every round of its loops but the last takes a token. -/
inductive Safely (tokens : List Token) : {α : Type} → Parse α → ParseState → Prop where
  | pure {α : Type} {value : α} {state : ParseState} (inside : state.place.In tokens) :
      Safely tokens (Pure.pure value) state
  | bind {α β : Type} {rule : Parse α} {next : α → Parse β} {state : ParseState} (first : Safely tokens rule state)
      (rest : ∀ value after, rule state = .ok value after → Safely tokens (next value) after) :
      Safely tokens (rule >>= next) state
  | read {α : Type} {next : ParseState → Parse α} {state : ParseState} (rest : Safely tokens (next state) state) :
      Safely tokens (MonadState.get >>= next) state
  | giveUp {α : Type} {state : ParseState} (inside : state.place.In tokens) :
      Safely tokens (throw .rejected : Parse α) state
  | advance {state after : ParseState} {token : Token} (inside : state.place.In tokens)
      (ends : Parse.advance state = .ok token after) (stays : after.place.In tokens) : Safely tokens Parse.advance state
  | closeAngle {state after : ParseState} {closed : Bool} (inside : state.place.In tokens)
      (ends : Parse.closeAngle state = .ok closed after) (stays : after.place.In tokens) :
      Safely tokens Parse.closeAngle state
  | report {problem : Diagnostic} {state : ParseState} (inside : state.place.In tokens) :
      Safely tokens (Parse.report problem) state
  | declare {name : Text} {state : ParseState} (inside : state.place.In tokens) :
      Safely tokens (modify fun state => { state with typeNames := name :: state.typeNames }) state
  | attempt {α : Type} {rule : Parse α} {state : ParseState}
      (trial : Safely tokens rule { state with quiet := state.quiet + 1 }) : Safely tokens (Parse.attempt rule) state
  | lookahead {rule : Parse Bool} {state : ParseState}
      (trial : Safely tokens rule { state with quiet := state.quiet + 1 }) : Safely tokens (Parse.lookahead rule) state
  | recover {α : Type} {rule : Parse α} {state : ParseState} (inner : Safely tokens rule state) :
      Safely tokens (Parse.recover rule) state
  | nested {α : Type} {rule : Parse α} {state : ParseState} (inside : state.place.In tokens)
      (deeper : state.depth < state.settings.maxNesting → Safely tokens rule { state with depth := state.depth + 1 }) :
      Safely tokens (Parse.nested rule) state
  | withTypeParams {α : Type} {names : List Text} {rule : Parse α} {state : ParseState}
      (scope : Safely tokens rule { state with typeParams := names :: state.typeParams })
      (left : Leaves (·.typeParams ≠ []) (rule { state with typeParams := names :: state.typeParams })) :
      Safely tokens (Parse.withTypeParams names rule) state
  | loop {α β : Type} {start : α} {round : α → Parse (Round α β)} {state : ParseState}
      (rounds : ∀ value now, Repeats round start state value now → Safely tokens (round value) now)
      (takes : ∀ value now next after, Repeats round start state value now → round value now = .ok (.again next) after →
        now.place.taken < after.place.taken) : Safely tokens (Parse.loop start round) state

variable {tokens : List Token} {α β : Type} {room : Nat}

theorem Safely.inside {rule : Parse α} (safely : Safely tokens rule state) : state.place.In tokens := by
  induction safely with
  | pure inside | giveUp inside | advance inside | closeAngle inside | report inside | declare inside | nested inside =>
    exact inside
  | bind _ _ ih | read _ ih | attempt _ ih | lookahead _ ih | recover _ ih | withTypeParams _ _ ih => exact ih
  | loop _ _ ih => exact ih _ _ .here

private theorem quietly_rejected {rule : Parse α} {state after : ParseState} {stop : Stop}
    (inner : ∀ {stop after}, rule { state with quiet := state.quiet + 1 } = .error stop after → stop = .rejected)
    (stopped : quietly rule state = .error stop after) : stop = .rejected := by
  unfold quietly at stopped
  split at stopped
  · cases stopped
  next found =>
    cases stopped
    exact inner found

/-- Since every round takes a token, there are no more rounds than tokens. -/
private theorem loopWithin_rejected {start : α} {round : α → Parse (Round α β)} {first : ParseState}
    (inside : ∀ value now, Repeats round start first value now → now.place.taken < tokens.length)
    (rejected : ∀ value now, Repeats round start first value now → ∀ {stop after},
      round value now = .error stop after → stop = .rejected)
    (takes : ∀ value now next after, Repeats round start first value now → round value now = .ok (.again next) after →
      now.place.taken < after.place.taken)
    {allowance : List Token} {value : α} {state after : ParseState} {stop : Stop}
    (reached : Repeats round start first value state) (enough : tokens.length ≤ state.place.taken + allowance.length)
    (stopped : loopWithin round allowance value state = .error stop after) : stop = .rejected := by
  induction allowance generalizing value state with
  | nil =>
    have := inside value state reached
    simp only [List.length_nil] at enough
    omega
  | cons _ allowance ih =>
    rw [loopWithin, bind_apply] at stopped
    split at stopped
    next result middle ended =>
      cases result with
      | done result => cases stopped
      | again next =>
        have taken := takes value state next middle reached ended
        refine ih (reached.again ended) ?_ stopped
        simp only [List.length_cons] at enough
        omega
    next early =>
      cases stopped
      exact rejected value state reached early

theorem Safely.rejected {rule : Parse α} {stop : Stop} (safely : Safely tokens rule state)
    (stopped : rule state = .error stop after) : stop = .rejected := by
  induction safely generalizing stop after with
  | pure => cases stopped
  | @bind α β rule next state _ _ first_rejected rest_rejected =>
    rw [bind_apply] at stopped
    split at stopped
    next value middle ended => exact rest_rejected value middle ended stopped
    next early =>
      cases stopped
      exact first_rejected early
  | read _ ih => exact ih stopped
  | giveUp =>
    cases stopped
    rfl
  | advance _ ends | closeAngle _ ends => rw [ends] at stopped; cases stopped
  | @report problem state _ => rw [report_apply] at stopped; cases stopped
  | declare => cases stopped
  | attempt _ ih =>
    unfold Parse.attempt at stopped
    split at stopped
    · cases stopped
    · cases stopped
    next found =>
      cases stopped
      exact quietly_rejected ih found
  | lookahead _ ih =>
    unfold Parse.lookahead at stopped
    split at stopped
    · cases stopped
    · cases stopped
    next found =>
      cases stopped
      exact quietly_rejected ih found
  | recover _ ih =>
    unfold Parse.recover at stopped
    split at stopped
    · cases stopped
    · cases stopped
    next found =>
      cases stopped
      exact ih found
  | @nested α rule state _ _ ih =>
    rw [nested_apply] at stopped
    split at stopped
    · obtain ⟨marked, result, -⟩ := markTooDeep_steady .file state
      rw [result] at stopped
      cases stopped
      rfl
    next shallow =>
      split at stopped
      · cases stopped
      next found =>
        cases stopped
        exact ih (Nat.lt_of_not_le shallow) found
  | @withTypeParams α names rule state _ left ih =>
    have drop {after : ParseState} (some : after.typeParams ≠ []) : ∃ left, dropTypeParams after = .ok () left := by
      obtain ⟨inner, outer, same⟩ := List.exists_cons_of_ne_nil some
      exact ⟨_, dropTypeParams_apply same⟩
    unfold Parse.withTypeParams at stopped
    split at stopped
    next value middle found =>
      rw [found] at left
      obtain ⟨left, dropped⟩ := drop left
      replace stopped : (dropTypeParams >>= fun _ => Pure.pure value) middle = .error stop after := stopped
      rw [bind_apply, dropped] at stopped
      cases stopped
    next inner middle found =>
      rw [found] at left
      obtain ⟨left, dropped⟩ := drop left
      replace stopped : (dropTypeParams >>= fun _ => throw inner : Parse α) middle = .error stop after := stopped
      rw [bind_apply, dropped] at stopped
      cases stopped
      exact ih found
  | @loop α β start round state rounds takes ih =>
    have inside := (rounds start state .here).inside
    refine loopWithin_rejected (fun value now reached => (rounds value now reached).inside.taken_lt)
      (fun value now reached => ih value now reached) takes .here ?_ stopped
    simp only [List.length_cons, inside.upcoming, List.length_drop]
    omega

/-- There is room for as many levels of nesting as are allowed. -/
structure Roomy (room : Nat) (state : ParseState) : Prop where
  depth_le : state.depth ≤ state.settings.maxNesting
  room : state.settings.maxNesting < state.depth + room

theorem Roomy.moves {before : ParseState} (roomy : Roomy room before) (moves : Moves before after) :
    Roomy room after := by
  refine ⟨?_, ?_⟩ <;> rw [moves.settings, moves.depth]
  · exact roomy.depth_le
  · exact roomy.room

theorem Repeats.moves {round other : α → Parse (Round α β)} {view : Round α β → γ}
    (rounds : ∀ value, Paired names room view (round value) (other value)) {start value : α}
    (repeats : Repeats round start state value after) : Moves state after := by
  induction repeats with
  | here => exact .refl state
  | again _ goesOn ih => exact ih.trans ((rounds _).moved goesOn)

theorem advance_inside (closed : ∀ last ∈ tokens.getLast?, last.kind = .endOfFile) (inside : state.place.In tokens) :
    ∃ token after, advance state = .ok token after ∧ after.place.In tokens := by
  have moves := (@Paired.advance true 0).moves state
  cases result : advance state with
  | ok token after =>
    rw [result] at moves
    exact ⟨token, after, rfl, inside.reaches moves.place⟩
  | error stop after =>
    rw [advance_apply] at result
    split at result
    · cases result
    next more =>
      split at result
      next none => exact absurd none (inside.more closed more)
      · cases result

theorem closeAngle_inside (closed : ∀ last ∈ tokens.getLast?, last.kind = .endOfFile) (inside : state.place.In tokens) :
    ∃ found after, closeAngle state = .ok found after ∧ after.place.In tokens := by
  rw [closeAngle_apply]
  split
  · obtain ⟨token, after, result, stays⟩ := advance_inside closed inside
    exact ⟨true, after, by rw [bind_apply, result]; rfl, stays⟩
  · split
    next double => exact ⟨_, _, rfl, inside.step (.split double)⟩
    next => exact ⟨_, _, rfl, inside⟩

theorem Paired.safely (closed : ∀ last ∈ tokens.getLast?, last.kind = .endOfFile) {view : α → γ} {rule other : Parse α}
    (paired : Paired names room view rule other) (inside : state.place.In tokens) (roomy : Roomy room state) :
    Safely tokens rule state := by
  induction paired generalizing state with
  | pure => exact .pure inside
  | bind first rest first_safely rest_safely =>
    refine .bind (first_safely inside roomy) fun value after ended => ?_
    have moves := first.moved ended
    exact rest_safely value value rfl (inside.reaches moves.place) (roomy.moves moves)
  | read _ _ ih => exact .read (ih (.refl state) inside roomy)
  | giveUp => exact .giveUp inside
  | exhausted =>
    have := roomy.depth_le
    have := roomy.room
    omega
  | advance =>
    obtain ⟨token, after, ends, stays⟩ := advance_inside closed inside
    exact .advance inside ends stays
  | closeAngle =>
    obtain ⟨found, after, ends, stays⟩ := closeAngle_inside closed inside
    exact .closeAngle inside ends stays
  | report => exact .report inside
  | declare => exact .declare inside
  | attempt _ ih => exact .attempt (ih inside ⟨roomy.depth_le, roomy.room⟩)
  | lookahead _ ih => exact .lookahead (ih inside ⟨roomy.depth_le, roomy.room⟩)
  | recover _ ih => exact .recover (ih inside roomy)
  | nested _ ih =>
    refine .nested inside fun deeper => ih inside ⟨deeper, ?_⟩
    have := roomy.room
    dsimp only
    omega
  | withTypeParams inner ih =>
    refine .withTypeParams (ih inside ⟨roomy.depth_le, roomy.room⟩) ?_
    exact (inner.moves _).mono fun after moves => by simp [moves.typeParams]
  | loop begins rounds takes ih =>
    refine .loop (fun value now reached => ?_) fun value _ _ _ _ goesOn => takes value trivial goesOn trivial
    have moves := reached.moves fun value => rounds value value rfl
    exact ih value value rfl (inside.reaches moves.place) (roomy.moves moves)

def Accepting (rule : Parse α) : Prop := ∀ ⦃state after⦄, rule state ≠ .error .rejected after

namespace Accepting

variable {rule : Parse α} {next : α → Parse β}

theorem pure {value : α} : Accepting (Pure.pure value) := by
  intro state after stopped
  cases stopped

theorem exhausted : Accepting (throw .exhausted : Parse α) := by
  intro state after stopped
  cases stopped

theorem bind (first : Accepting rule) (rest : ∀ value, Accepting (next value)) : Accepting (rule >>= next) := by
  intro state after stopped
  rw [bind_apply] at stopped
  split at stopped
  · exact rest _ stopped
  next early =>
    cases stopped
    exact first early

theorem read {next : ParseState → Parse α} (rest : ∀ state, Accepting (next state)) :
    Accepting (MonadState.get >>= next) := fun state _ stopped => rest state stopped

theorem peek {next : Token → Parse α} (rest : ∀ token, Accepting (next token)) : Accepting (Parse.peek >>= next) :=
  fun _ _ stopped => rest _ stopped

theorem advance : Accepting Parse.advance := by
  intro state after stopped
  rw [advance_apply] at stopped
  split at stopped
  · cases stopped
  · split at stopped <;> cases stopped

theorem eat {kind : TokenKind} : Accepting (Parse.eat kind) := by
  intro state after stopped
  rw [eat_apply] at stopped
  split at stopped
  · exact advance.bind (fun _ => pure) stopped
  · cases stopped

theorem recover : Accepting (Parse.recover rule) := by
  intro state after stopped
  unfold Parse.recover at stopped
  split at stopped
  · cases stopped
  · cases stopped
  next other _ =>
    cases stopped
    exact other rfl

theorem loop {start : α} {round : α → Parse (Round α β)} (rounds : ∀ value, Accepting (round value)) :
    Accepting (Parse.loop start round) := by
  have within (allowance : List Token) (value : α) : Accepting (loopWithin round allowance value) := by
    induction allowance generalizing value with
    | nil => exact exhausted
    | cons _ allowance ih =>
      refine (rounds value).bind fun result => ?_
      cases result with
      | done result => exact pure
      | again next => exact ih next
  exact read fun state => within _ start

end Accepting

theorem skipDecl_accepting : Accepting skipDecl := by
  refine .loop fun depth => .peek fun token => ?_
  split
  · exact .pure
  · exact .bind .advance fun _ => .pure
  · refine .bind .advance fun _ => ?_
    split
    · exact .pure
    · exact .bind .eat fun _ => .pure
  · refine .bind .advance fun _ => ?_
    split <;> exact .pure
  · split
    · exact .pure
    · exact .bind .advance fun _ => .pure
  · exact .bind .advance fun _ => .pure

/-- Broken declarations are skipped, so a file as a whole is not rejected. -/
theorem decls_accepting (levels : Nat) : Accepting (decls levels) := by
  refine .loop fun decls => ?_
  refine Accepting.bind (.peek fun _ => .pure) fun ended => .read fun _ => ?_
  split
  · exact .pure
  · refine .read fun start => .bind .recover fun found => ?_
    cases found with
    | some decl => exact .pure
    | none =>
      refine .bind skipDecl_accepting fun _ => .read fun _ => ?_
      dsimp only
      split
      · exact .bind .advance fun _ => .pure
      · exact .pure

end Parse

theorem closeTokens_closed (file : UInt32) (tokens : List Token) :
    ∀ last ∈ (closeTokens file tokens).getLast?, last.kind = .endOfFile := by
  intro last found
  unfold closeTokens at found
  split at found
  next given same =>
    split at found
    next ended =>
      rw [same] at found
      cases found
      exact ended
    next =>
      rw [List.getLast?_append_of_ne_nil _ (by simp)] at found
      cases found
      rfl
  next =>
    cases found
    rfl

theorem ParseState.start_inside (settings : ParseSettings) (file : UInt32) (tokens : List Token) :
    (start settings file tokens).place.In (closeTokens file tokens) := by
  have some : closeTokens file tokens ≠ [] := by
    unfold closeTokens
    split
    next given same =>
      split
      · rintro rfl
        cases same
      · simp
    next => simp
  obtain ⟨first, rest, same⟩ := List.exists_cons_of_ne_nil some
  unfold start
  rw [same]
  exact ⟨rfl, first, rfl, .inl rfl⟩

theorem ParseState.start_safely (settings : ParseSettings) (file : UInt32) (tokens : List Token) :
    Parse.Safely (closeTokens file tokens) (Parse.decls (settings.maxNesting + 1)) (start settings file tokens) :=
  (Parse.decls_composed (settings.maxNesting + 1)).safely (closeTokens_closed file tokens) (start_inside settings file tokens)
    ⟨Nat.zero_le _, Nat.lt_of_lt_of_eq (Nat.lt_succ_self _) (Nat.zero_add _).symm⟩

theorem ParseState.start_ends (settings : ParseSettings) (file : UInt32) (tokens : List Token) :
    ∃ decls after, Parse.decls (settings.maxNesting + 1) (start settings file tokens) = .ok decls after := by
  cases result : Parse.decls (settings.maxNesting + 1) (start settings file tokens) with
  | ok decls after => exact ⟨decls, after, rfl⟩
  | error stop after =>
    cases (start_safely settings file tokens).rejected result
    exact absurd result (@Parse.decls_accepting _ _ after)

/-- A parse of any tokens stays inside them at every step, and ends with a program. -/
theorem parse_stays_inside (settings : ParseSettings) (file : UInt32) (tokens : List Token) :
    let closed := closeTokens file tokens
    let rule := Parse.decls (settings.maxNesting + 1)
    let state := ParseState.start settings file tokens
    Parse.Safely closed rule state ∧ ∃ decls after, rule state = .ok decls after ∧ after.place.In closed ∧
      parseTokens settings file tokens = { program := { file, decls }, reports := after.reports.reverse } := by
  intro closed rule state
  obtain ⟨decls, after, result⟩ := ParseState.start_ends settings file tokens
  have moves := (Parse.decls_composed (settings.maxNesting + 1)).moved result
  refine ⟨ParseState.start_safely settings file tokens, decls, after, result, ?_, ?_⟩
  · exact (ParseState.start_inside settings file tokens).reaches moves.place
  · unfold parseTokens
    rw [result]

end GenericC
